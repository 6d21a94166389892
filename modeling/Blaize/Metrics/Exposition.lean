import Blaize.Lib.Js
import Blaize.Metrics.PrometheusFormatter

/-!
The exposition as families of samples.

* `Sample`, `Family`, `families`: what is exported, before any text is made of it;
* `exportLines_eq`: **the lines are those of the families**;
* `labelMap`: the labels that are formatted for a sample;
* `readSamples`: a reader of the exposition;
* `readSamples_exportPrometheus`: **what is read are the samples, with these labels**.
-/

namespace Blaize.Metrics.Prometheus

variable {N : Type} (numbers : Numbers N)

/-! ### Families -/

/-- A sample with the label of its own that it may have. -/
structure Sample (N : Type) where
  name : String
  own : Option (String × String) := none
  value : Value N

/-- A metric with its samples. -/
structure Family (N : Type) where
  name : String
  help : String
  kind : String
  samples : List (Sample N)

/-- A family of one sample. -/
def single (name help kind : String) (value : Value N) : Family N :=
  ⟨name, help, kind, [{ name, value }]⟩

/-- A family with a sample for each property. -/
def labelled (name help label : String) (counts : OrdMap String N) : Family N :=
  ⟨name, help, "counter", counts.entries.map fun (key, count) =>
    { name, own := some (label, key), value := .plain count }⟩

/-- A statistic in the unit of its metric. -/
def seconds (convertToSeconds : Bool) (x : N) : N :=
  if convertToSeconds then numbers.div x (numbers.lit 1000) else x

/-- The bounds of the buckets of a histogram. -/
def bounds (stats : HistogramStats N) (convertToSeconds : Bool) : List N :=
  if convertToSeconds then STANDARD_BUCKETS.map numbers.lit else generateCustomBuckets numbers stats

/-- The samples of a histogram. -/
def histogramSamples (name : String) (stats : HistogramStats N) (convertToSeconds : Bool) :
    List (Sample N) :=
  let unit := seconds numbers convertToSeconds
  ((bounds numbers stats convertToSeconds).map fun bucket =>
    { name := name ++ "_bucket"
      own := some ("le", numbers.toString bucket)
      value := .plain (cumulativeCount numbers stats.count (unit stats.max) bucket) }) ++
    [{ name := name ++ "_bucket", own := some ("le", "+Inf"), value := .plain stats.count },
      { name := name ++ "_sum", value := .fixed (unit stats.sum) 6 },
      { name := name ++ "_count", value := .plain stats.count }]

/-- A family that is a histogram. -/
def histogram (name help : String) (stats : HistogramStats N) (convertToSeconds : Bool) :
    Family N :=
  ⟨name, help, "histogram", histogramSamples numbers name stats convertToSeconds⟩

/-- The families of the requests. -/
def httpFamilies (http : HttpMetrics N) : List (Family N) :=
  [single "http_requests_total" "Total number of HTTP requests processed" "counter"
      (.plain http.totalRequests),
    single "http_requests_active" "Number of HTTP requests currently being processed" "gauge"
      (.plain http.activeRequests),
    single "http_requests_per_second" "Average HTTP requests per second" "gauge"
      (.fixed http.requestsPerSecond 3),
    labelled "http_requests_by_status_total" "HTTP requests by status code" "status"
      http.statusCodes,
    histogram numbers "http_request_duration_seconds" "HTTP request latency in seconds"
      http.latency true,
    labelled "http_requests_by_method_total" "HTTP requests by method" "method" http.byMethod,
    labelled "http_requests_by_route_total" "HTTP requests by route" "route" http.byRoute]

/-- The families of the process. -/
def processFamilies (process : ProcessMetrics N) : List (Family N) :=
  let divided (x : N) (n : ℚ) := Value.fixed (numbers.div x (numbers.lit n)) 6
  [single "process_memory_heap_used_bytes" "Process heap memory used in bytes" "gauge"
      (.plain process.heapUsed),
    single "process_memory_heap_total_bytes" "Process heap memory total in bytes" "gauge"
      (.plain process.heapTotal),
    single "process_memory_external_bytes" "Process external memory in bytes" "gauge"
      (.plain process.external),
    single "process_memory_rss_bytes" "Process resident set size in bytes" "gauge"
      (.plain process.rss),
    single "process_cpu_user_seconds_total" "Total user CPU time in seconds" "counter"
      (divided process.user 1000000),
    single "process_cpu_system_seconds_total" "Total system CPU time in seconds" "counter"
      (divided process.system 1000000),
    single "process_uptime_seconds" "Process uptime in seconds" "gauge"
      (.fixed process.uptime 3),
    single "process_event_loop_lag_seconds" "Event loop lag in seconds" "gauge"
      (divided process.eventLoopLag 1000)]

/-- The families of the application. -/
def customFamilies (custom : CustomMetrics N) : List (Family N) :=
  (custom.counters.entries.map fun (name, value) =>
      single (sanitizeMetricName name) "Custom counter metric" "counter" (.plain value)) ++
    (custom.gauges.entries.map fun (name, value) =>
      single (sanitizeMetricName name) "Custom gauge metric" "gauge" (.plain value)) ++
    (custom.histograms.entries.map fun (name, stats) =>
      histogram numbers (sanitizeMetricName name) "Custom histogram metric" stats false) ++
    custom.timers.entries.map fun (name, stats) =>
      histogram numbers (sanitizeMetricName name ++ "_seconds") "Custom timer metric in seconds"
        stats true

/-- All families. -/
def families (snapshot : MetricsSnapshot N) : List (Family N) :=
  httpFamilies numbers snapshot.http ++ processFamilies numbers snapshot.process ++
    customFamilies numbers snapshot.custom

/-! ### Lines -/

/-- The labels of a sample: without one of its own they are formatted at once, with one they
are formatted, parsed and formatted again. -/
def labelMap (labels : OrdMap String String) : Option (String × String) → OrdMap String String
  | none => labels
  | some (key, value) => (parseLabels (formatLabels labels)).set key value

/-- The line of a sample. -/
def Sample.line (labels : OrdMap String String) (sample : Sample N) : Line N :=
  .sample sample.name (formatLabels (labelMap labels sample.own)) sample.value

/-- The lines of a family. -/
def Family.lines (labels : OrdMap String String) (family : Family N) : List (Line N) :=
  [.help family.name family.help, .type family.name family.kind] ++
    family.samples.map (Sample.line labels) ++ [.blank]

variable (labels : OrdMap String String)

lemma exportSingle_eq (name help kind : String) (value : Value N) :
    exportSingle name help kind (formatLabels labels) value =
      (single name help kind value).lines labels := rfl

lemma exportLabelled_eq (name help label : String) (counts : OrdMap String N) :
    exportLabelled name help label (formatLabels labels) counts =
      (labelled name help label counts).lines labels := by
  simp only [exportLabelled, Family.lines, labelled, List.map_map]
  rfl

lemma exportHistogramMetric_eq (name help : String) (stats : HistogramStats N)
    (convertToSeconds : Bool) :
    exportHistogramMetric numbers name help (formatLabels labels) stats convertToSeconds =
      (histogram numbers name help stats convertToSeconds).lines labels := by
  simp only [exportHistogramMetric, exportHistogram, Family.lines, histogram, histogramSamples,
    List.map_append, List.map_map]
  rfl

/-- **The lines are those of the families.** -/
theorem exportLines_eq (snapshot : MetricsSnapshot N) :
    exportLines numbers snapshot labels =
      (families numbers snapshot).flatMap (Family.lines labels) := by
  have hhttp : exportHttpMetrics numbers snapshot (formatLabels labels) =
      (httpFamilies numbers snapshot.http).flatMap (Family.lines labels) := by
    simp only [exportHttpMetrics, httpFamilies, exportSingle_eq, exportLabelled_eq,
      exportHistogramMetric_eq, List.flatMap_cons, List.flatMap_nil, List.append_nil,
      List.append_assoc]
  have hprocess : exportProcessMetrics numbers snapshot (formatLabels labels) =
      (processFamilies numbers snapshot.process).flatMap (Family.lines labels) := by
    simp only [exportProcessMetrics, processFamilies, exportSingle_eq, List.flatMap_cons,
      List.flatMap_nil, List.append_nil, List.append_assoc]
  have hcustom : exportCustomMetrics numbers snapshot (formatLabels labels) =
      (customFamilies numbers snapshot.custom).flatMap (Family.lines labels) := by
    simp only [exportCustomMetrics, customFamilies, List.flatMap_append, List.flatMap_map,
      exportSingle_eq, exportHistogramMetric_eq]
  rw [exportLines, hhttp, hprocess, hcustom, families, List.flatMap_append, List.flatMap_append]

/-! ### Names -/

/-- A name that the families and samples can have. -/
def IsName (name : String) : Prop :=
  name.toList ≠ [] ∧ ∀ c ∈ name.toList, TextFormat.isNameChar c = true

lemma isNameChar_sanitizeChar (c : Char) :
    ∀ d ∈ sanitizeChar c, TextFormat.isNameChar d = true := by
  intro d hd
  rw [sanitizeChar] at hd
  split at hd
  next h => exact List.mem_singleton.mp hd ▸ h
  split at hd
  · simp only [List.mem_cons, List.not_mem_nil, or_false, or_self] at hd
    rw [hd]
    decide
  · rw [List.mem_singleton.mp hd]
    decide

lemma isName_sanitizeMetricName (name : String) : IsName (sanitizeMetricName name) := by
  have hall : ∀ c ∈ name.toList.flatMap sanitizeChar, TextFormat.isNameChar c = true := by
    intro c hc
    obtain ⟨d, -, hd⟩ := List.mem_flatMap.mp hc
    exact isNameChar_sanitizeChar d c hd
  rw [IsName, sanitizeMetricName]
  split
  next hhead =>
      rw [String.toList_ofList]
      refine ⟨fun hnil => ?_, hall⟩
      rw [hnil] at hhead
      cases hhead
  next =>
      rw [String.toList_ofList]
      refine ⟨List.cons_ne_nil _ _, fun c hc => ?_⟩
      rcases List.mem_cons.mp hc with rfl | hc
      · decide
      · exact hall c hc

/-- A name of the format stays as it is. -/
lemma sanitizeMetricName_of_valid {name : String} (hhead : name.toList.head?.any (fun c =>
    c.isAlpha || c = '_' || c = ':') = true)
    (hall : ∀ c ∈ name.toList, TextFormat.isNameChar c = true) :
    sanitizeMetricName name = name := by
  have hsame : name.toList.flatMap sanitizeChar = name.toList := by
    have hone : ∀ c ∈ name.toList, sanitizeChar c = [c] := fun c hc => by
      rw [sanitizeChar, if_pos (hall c hc)]
    rw [List.flatMap_congr hone, List.flatMap_singleton']
  rw [sanitizeMetricName]
  rw [hsame, if_pos hhead, String.ofList_toList]

lemma IsName.append {name suffix : String} (h : IsName name)
    (hsuffix : ∀ c ∈ suffix.toList, TextFormat.isNameChar c = true) : IsName (name ++ suffix) := by
  constructor
  · simp [h.1]
  · intro c hc
    rw [String.toList_append] at hc
    rcases List.mem_append.mp hc with hc | hc
    · exact h.2 c hc
    · exact hsuffix c hc

/-- The samples of a family are named after it. -/
lemma isName_histogram {name help : String} {stats : HistogramStats N} {convertToSeconds : Bool}
    (h : IsName name) :
    ∀ s ∈ (histogram numbers name help stats convertToSeconds).samples, IsName s.name := by
  intro s hs
  simp only [histogram, histogramSamples, List.mem_append, List.mem_map, List.mem_cons,
    List.not_mem_nil, or_false] at hs
  rcases hs with ⟨bucket, -, rfl⟩ | rfl | rfl | rfl
  · exact h.append (by decide)
  · exact h.append (by decide)
  · exact h.append (by decide)
  · exact h.append (by decide)

/-- A family whose names are by the rules of the format, with texts of one line. -/
structure Family.Named (family : Family N) : Prop where
  name : IsName family.name
  help : '\n' ∉ family.help.toList
  kind : '\n' ∉ family.kind.toList
  samples : ∀ s ∈ family.samples, IsName s.name

lemma named_single {name help kind : String} {value : Value N} (h : IsName name)
    (hhelp : '\n' ∉ help.toList) (hkind : '\n' ∉ kind.toList) :
    (single name help kind value).Named :=
  ⟨h, hhelp, hkind, fun _ hs => List.mem_singleton.mp hs ▸ h⟩

lemma named_labelled {name help label : String} {counts : OrdMap String N} (h : IsName name)
    (hhelp : '\n' ∉ help.toList) : (labelled name help label counts).Named := by
  refine ⟨h, hhelp, by simp [labelled], fun s hs => ?_⟩
  obtain ⟨e, -, rfl⟩ := List.mem_map.mp hs
  exact h

lemma named_histogram {name help : String} {stats : HistogramStats N} {convertToSeconds : Bool}
    (h : IsName name) (hhelp : '\n' ∉ help.toList) :
    (histogram numbers name help stats convertToSeconds).Named :=
  ⟨h, hhelp, by simp [histogram], isName_histogram numbers h⟩

/-- A literal is named by its characters. -/
lemma isName_ofList {name : List Char}
    (h : name ≠ [] ∧ ∀ c ∈ name, TextFormat.isNameChar c = true) : IsName (String.ofList name) := by
  rwa [IsName, String.toList_ofList]

lemma newline_notMem_ofList {text : List Char} (h : '\n' ∉ text) :
    '\n' ∉ (String.ofList text).toList := by
  rwa [String.toList_ofList]

/-- **Every family is named by the rules of the format.** -/
lemma named_families (snapshot : MetricsSnapshot N) :
    ∀ family ∈ families numbers snapshot, family.Named := by
  intro family hfamily
  rw [families, List.mem_append, List.mem_append] at hfamily
  rcases hfamily with (hfamily | hfamily) | hfamily
  · simp only [httpFamilies, List.mem_cons, List.not_mem_nil, or_false] at hfamily
    rcases hfamily with rfl | rfl | rfl | rfl | rfl | rfl | rfl
    · exact named_single (isName_ofList (by decide)) (newline_notMem_ofList (by decide))
        (newline_notMem_ofList (by decide))
    · exact named_single (isName_ofList (by decide)) (newline_notMem_ofList (by decide))
        (newline_notMem_ofList (by decide))
    · exact named_single (isName_ofList (by decide)) (newline_notMem_ofList (by decide))
        (newline_notMem_ofList (by decide))
    · exact named_labelled (isName_ofList (by decide)) (newline_notMem_ofList (by decide))
    · exact named_histogram numbers (isName_ofList (by decide)) (newline_notMem_ofList (by decide))
    · exact named_labelled (isName_ofList (by decide)) (newline_notMem_ofList (by decide))
    · exact named_labelled (isName_ofList (by decide)) (newline_notMem_ofList (by decide))
  · simp only [processFamilies, List.mem_cons, List.not_mem_nil, or_false] at hfamily
    rcases hfamily with rfl | rfl | rfl | rfl | rfl | rfl | rfl | rfl
    all_goals
      exact named_single (isName_ofList (by decide)) (newline_notMem_ofList (by decide))
        (newline_notMem_ofList (by decide))
  · simp only [customFamilies, List.mem_append, List.mem_map] at hfamily
    rcases hfamily with ((⟨e, -, rfl⟩ | ⟨e, -, rfl⟩) | ⟨e, -, rfl⟩) | ⟨e, -, rfl⟩
    · exact named_single (isName_sanitizeMetricName e.1) (by simp) (by simp)
    · exact named_single (isName_sanitizeMetricName e.1) (by simp) (by simp)
    · exact named_histogram numbers (isName_sanitizeMetricName e.1) (by simp)
    · exact named_histogram numbers ((isName_sanitizeMetricName e.1).append (by decide)) (by simp)

/-! ### Reading -/

/-- The labels of a line, as the reader gets them. -/
def labelTexts (labels : OrdMap String String) : List TextFormat.Label :=
  labels.entries.map fun (key, value) => ((sanitizeMetricName key).toList, value.toList)

/-- The three replacements one after the other escape each character for itself. -/
lemma escapeLabel_toList (value : String) :
    (escapeLabel value).toList = TextFormat.escape value.toList := by
  rw [escapeLabel, String.toList_ofList, replaceAll, replaceAll, replaceAll, List.flatMap_assoc,
    List.flatMap_assoc, TextFormat.escape]
  refine List.flatMap_congr fun c _ => ?_
  by_cases hbackslash : c = '\\'
  · subst hbackslash
    rfl
  by_cases hquote : c = '"'
  · subst hquote
    rfl
  by_cases hnewline : c = '\n'
  · subst hnewline
    rfl
  · rw [TextFormat.escapeChar_of_ne hbackslash hquote hnewline]
    simp [hbackslash, hquote, hnewline]

lemma formatLabels_toList :
    (formatLabels labels).toList = TextFormat.renderLabels (labelTexts labels) := by
  rw [formatLabels, labelTexts]
  cases labels.entries with
  | nil => rfl
  | cons e entries =>
      have hlabel : ∀ e : String × String,
          (sanitizeMetricName e.1 ++ "=\"" ++ escapeLabel e.2 ++ "\"").toList =
            TextFormat.renderLabel ((sanitizeMetricName e.1).toList, e.2.toList) := by
        intro e
        simp [TextFormat.renderLabel, escapeLabel_toList]
      have hmap : ((e :: entries).map fun (key, value) =>
          sanitizeMetricName key ++ "=\"" ++ escapeLabel value ++ "\"").map String.toList =
          ((e :: entries).map fun (key, value) =>
            ((sanitizeMetricName key).toList, value.toList)).map TextFormat.renderLabel := by
        rw [List.map_map, List.map_map]
        exact List.map_congr_left fun e _ => hlabel e
      rw [if_neg (List.cons_ne_nil _ _), String.toList_append, String.toList_append,
        String.toList_intercalate, hmap]
      rfl

/-- A sample as it is read in the exposition. -/
def Sample.read (sample : Sample N) : TextFormat.Sample where
  name := sample.name.toList
  labels := labelTexts (labelMap labels sample.own)
  value := (sample.value.toString numbers).toList

lemma toList_line (sample : Sample N) :
    ((sample.line labels).toString numbers).toList = (sample.read numbers labels).render := by
  rw [Sample.line, Line.toString, TextFormat.Sample.render, Sample.read, String.toList_append,
    String.toList_append, String.toList_append, formatLabels_toList, List.append_assoc]
  rfl

lemma notMem_labelTexts {c : Char} (hc : TextFormat.isNameChar c = false) :
    ∀ label ∈ labelTexts labels, c ∉ label.1 := by
  intro label hlabel
  obtain ⟨e, -, rfl⟩ := List.mem_map.mp hlabel
  intro hmem
  rw [(isName_sanitizeMetricName e.1).2 c hmem] at hc
  cases hc

lemma IsName.newline_notMem {name : String} (h : IsName name) : '\n' ∉ name.toList :=
  fun hmem => by cases h.2 _ hmem

lemma newline_notMem_value (value : Value N) : '\n' ∉ (value.toString numbers).toList := by
  cases value with
  | plain number => exact numbers.newline_toString number
  | fixed number digits => exact numbers.newline_toFixed number digits

/-- **A sample takes one line, and that line is read as the sample.** -/
lemma read_line {sample : Sample N} (h : IsName sample.name) :
    '\n' ∉ ((sample.line labels).toString numbers).toList ∧
      TextFormat.readSample ((sample.line labels).toString numbers).toList =
        some (sample.read numbers labels) := by
  rw [toList_line]
  constructor
  · exact TextFormat.newline_notMem_render h.newline_notMem (notMem_labelTexts _ rfl)
      (newline_notMem_value numbers sample.value)
  · exact TextFormat.readSample_render h.1 h.2 (notMem_labelTexts _ rfl)

lemma newline_notMem_line {family : Family N} (h : family.Named) :
    ∀ line ∈ family.lines labels, '\n' ∉ (line.toString numbers).toList := by
  intro line hline
  simp only [Family.lines, List.mem_append, List.mem_cons, List.not_mem_nil, or_false,
    List.mem_map] at hline
  rcases hline with ((rfl | rfl) | ⟨sample, hsample, rfl⟩) | rfl
  · simp [Line.toString, h.name.newline_notMem, h.help]
  · simp [Line.toString, h.name.newline_notMem, h.kind]
  · exact (read_line numbers labels (h.samples sample hsample)).1
  · exact List.not_mem_nil

/-- The lines of a family as texts. -/
lemma texts_lines (family : Family N) :
    ((family.lines labels).map fun line => (line.toString numbers).toList) =
      [("# HELP " ++ family.name ++ " " ++ family.help).toList,
        ("# TYPE " ++ family.name ++ " " ++ family.kind).toList] ++
        (family.samples.map fun sample => ((sample.line labels).toString numbers).toList) ++
        [[]] := by
  rw [Family.lines, List.map_append, List.map_append, List.map_map]
  rfl

/-- Of the lines of a family exactly the samples are read. -/
lemma readSample_lines {family : Family N} (h : family.Named) :
    ((family.lines labels).map fun line => (line.toString numbers).toList).filterMap
        TextFormat.readSample =
      family.samples.map (Sample.read numbers labels) := by
  have hcomment : ∀ text, TextFormat.readSample ('#' :: text) = none := fun _ => rfl
  have hhelp : TextFormat.readSample
      (("# HELP " ++ family.name ++ " " ++ family.help).toList) = none := by
    simp only [String.toList_append]
    exact hcomment _
  have htype : TextFormat.readSample
      (("# TYPE " ++ family.name ++ " " ++ family.kind).toList) = none := by
    simp only [String.toList_append]
    exact hcomment _
  have hsamples : (family.samples.map fun sample =>
      ((sample.line labels).toString numbers).toList).filterMap TextFormat.readSample =
        family.samples.map (Sample.read numbers labels) := by
    rw [List.filterMap_map, ← List.filterMap_eq_map]
    exact List.filterMap_congr fun sample hsample =>
      (read_line numbers labels (h.samples sample hsample)).2
  have hblank : [[]].filterMap TextFormat.readSample = [] := rfl
  rw [texts_lines, List.filterMap_append, List.filterMap_append, hsamples, hblank,
    List.filterMap_cons_none hhelp, List.filterMap_cons_none htype, List.filterMap_nil,
    List.nil_append, List.append_nil]

/-! ### The whole text -/

/-- The samples that a reader of the format gets. -/
def readSamples (text : String) : List TextFormat.Sample :=
  (text.toList.splitOn '\n').filterMap TextFormat.readSample

/-- The pieces of the text are its lines and an empty one. -/
lemma splitOn_exportPrometheus (snapshot : MetricsSnapshot N) :
    (exportPrometheus numbers snapshot labels).toList.splitOn '\n' =
      ((exportLines numbers snapshot labels).map fun line => (line.toString numbers).toList) ++
        [[]] := by
  have hne : ((exportLines numbers snapshot labels).map fun line =>
      (line.toString numbers).toList) ≠ [] := by
    simp [exportLines, exportHttpMetrics, exportSingle]
  have hlines : ∀ l ∈ (exportLines numbers snapshot labels).map fun line =>
      (line.toString numbers).toList, '\n' ∉ l := by
    intro l hl
    obtain ⟨line, hline, rfl⟩ := List.mem_map.mp hl
    rw [exportLines_eq] at hline
    obtain ⟨family, hfamily, hline⟩ := List.mem_flatMap.mp hline
    exact newline_notMem_line numbers labels (named_families numbers snapshot family hfamily)
      line hline
  rw [exportPrometheus, String.toList_append, String.toList_intercalate, List.map_map]
  exact (congrArg _ (List.intercalate_concat '\n' hne)).trans (List.splitOn_flatMap_concat hlines)

/-- **What is read are the samples of the families.** -/
theorem readSamples_exportPrometheus (snapshot : MetricsSnapshot N) :
    readSamples (exportPrometheus numbers snapshot labels) =
      (families numbers snapshot).flatMap fun family =>
        family.samples.map (Sample.read numbers labels) := by
  have hempty : [[]].filterMap TextFormat.readSample = [] := rfl
  rw [readSamples, splitOn_exportPrometheus, exportLines_eq, List.filterMap_append, hempty,
    List.append_nil, List.map_flatMap, List.filterMap_flatMap]
  exact List.flatMap_congr fun family hfamily =>
    readSample_lines numbers labels (named_families numbers snapshot family hfamily)

end Blaize.Metrics.Prometheus
