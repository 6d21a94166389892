import Mathlib.Data.List.Pairwise
import Blaize.Metrics.Exact
import Blaize.Metrics.Labels

/-!
Whether the exposition is well-formed: no family is declared twice, and no two samples are of one
series, that is, have the same name and the same labels.

The custom names come from four maps and are changed before they are used, so two of them can
become one, or one of the built-in names, or the name of a part of a histogram.

* `readTypes`, `readTypes_exportPrometheus`: the names that are declared;
* `SameSeries`, `WellFormed`: what a reader of the text finds;
* `Unambiguous`: the names that are used are different, also from the parts of histograms, and so
  are the bounds of each custom histogram;
* `not_sameSeries_of_own`, `not_sameSeries_of_plain`: what labels of their own make different;
* `wellFormed_iff`: **the text is well-formed exactly if the names are unambiguous**.
-/

namespace Blaize.Metrics.Prometheus

variable {N : Type} (numbers : Numbers N)

/-! ### Declarations -/

/-- The names that a reader of the format finds declared. -/
def readTypes (text : String) : List (List Char) :=
  (text.toList.splitOn '\n').filterMap TextFormat.readType

variable (labels : OrdMap String String)

lemma readType_line_sample {sample : Sample N} (h : IsName sample.name) :
    TextFormat.readType ((sample.line labels).toString numbers).toList = none := by
  rw [toList_line, TextFormat.Sample.render, Sample.read]
  cases hname : sample.name.toList with
  | nil => exact absurd hname h.1
  | cons c name =>
      refine TextFormat.readType_of_ne ?_ _
      rintro rfl
      cases h.2 '#' (hname ▸ List.mem_cons_self)

/-- A family is declared once. -/
lemma readType_lines {family : Family N} (h : family.Named) :
    ((family.lines labels).map fun line => (line.toString numbers).toList).filterMap
        TextFormat.readType = [family.name.toList] := by
  have hspace : ' ' ∉ family.name.toList := fun hmem => by cases h.name.2 _ hmem
  have hother : ∀ text, TextFormat.readType ('#' :: ' ' :: 'H' :: text) = none := fun _ => rfl
  have hhelp : TextFormat.readType
      (("# HELP " ++ family.name ++ " " ++ family.help).toList) = none := by
    simp only [String.toList_append]
    exact hother _
  have htype : TextFormat.readType
      (("# TYPE " ++ family.name ++ " " ++ family.kind).toList) = some family.name.toList := by
    simp only [String.toList_append, List.append_assoc]
    exact TextFormat.readType_type hspace _
  have hsamples : (family.samples.map fun sample =>
      ((sample.line labels).toString numbers).toList).filterMap TextFormat.readType = [] := by
    rw [List.filterMap_map]
    exact List.filterMap_eq_nil_iff.mpr fun sample hsample =>
      readType_line_sample numbers labels (h.samples sample hsample)
  rw [texts_lines, List.filterMap_append, List.filterMap_append, hsamples,
    List.filterMap_cons_none hhelp, List.filterMap_cons_some htype]
  rfl

/-- **What is declared are the families.** -/
theorem readTypes_exportPrometheus (snapshot : MetricsSnapshot N) :
    readTypes (exportPrometheus numbers snapshot labels) =
      (families numbers snapshot).map fun family => family.name.toList := by
  have hempty : [[]].filterMap TextFormat.readType = [] := rfl
  rw [readTypes, splitOn_exportPrometheus, exportLines_eq, List.filterMap_append, hempty,
    List.append_nil, List.map_flatMap, List.filterMap_flatMap, List.map_eq_flatMap]
  exact List.flatMap_congr fun family hfamily =>
    readType_lines numbers labels (named_families numbers snapshot family hfamily)

/-! ### Series -/

/-- Two samples of one series. -/
def SameSeries (a b : TextFormat.Sample) : Prop :=
  a.name = b.name ∧ ∀ label, label ∈ a.labels ↔ label ∈ b.labels

structure WellFormed (text : String) : Prop where
  types : (readTypes text).Nodup
  samples : (readSamples text).Pairwise fun a b => ¬ SameSeries a b

/-- Nothing but the name itself becomes a name without an underscore. -/
lemma eq_of_sanitizeMetricName {name key : String} (hkey : '_' ∉ key.toList)
    (h : sanitizeMetricName name = key) : name = key := by
  have hlist := congrArg String.toList h
  rw [sanitizeMetricName, apply_ite String.toList, String.toList_ofList, String.toList_ofList]
    at hlist
  split at hlist
  · refine String.toList_inj.mp ?_
    rw [← hlist]
    have hone : ∀ c ∈ name.toList, sanitizeChar c = [c] := by
      intro c hc
      rw [sanitizeChar]
      split
      · rfl
      · have hmem : '_' ∈ sanitizeChar c := by
          rw [sanitizeChar]
          split
          · contradiction
          · split <;> exact List.mem_cons_self
        exact absurd (hlist ▸ List.mem_flatMap.mpr ⟨c, hc, hmem⟩) hkey
    rw [List.flatMap_congr hone, List.flatMap_singleton']
  · exact absurd (hlist ▸ List.mem_cons_self) hkey

lemma underscore_notMem_ownLabels : ∀ key ∈ ownLabels, '_' ∉ key.toList := by decide

/-- A label with one of the own names is the label of that name. -/
lemma mem_labelTexts_iff {m : OrdMap String String} {key : String} (hkey : key ∈ ownLabels)
    (value : String) : (key.toList, value.toList) ∈ labelTexts m ↔ m.get key = some value := by
  rw [← OrdMap.mem_entries_iff]
  constructor
  · intro hmem
    obtain ⟨e, he, heq⟩ := List.mem_map.mp hmem
    obtain ⟨hname, hvalue⟩ := Prod.mk.inj heq
    have hfirst : e.1 = key := eq_of_sanitizeMetricName (underscore_notMem_ownLabels key hkey)
      (String.toList_inj.mp hname)
    rwa [← hfirst, ← String.toList_inj.mp hvalue]
  · intro hmem
    refine List.mem_map.mpr ⟨_, hmem, ?_⟩
    dsimp only
    rw [(isLabelName_ownLabels key hkey).sanitize]

variable (l : LabelMap) {numbers}

/-- Different values of a label of their own make two series. -/
lemma not_sameSeries_of_own {s s' : Sample N} {key value value' : String} (hkey : key ∈ ownLabels)
    (hs : s.own = some (key, value)) (hs' : s'.own = some (key, value')) (hne : value ≠ value') :
    ¬ SameSeries (s.read numbers l.labels) (s'.read numbers l.labels) := by
  rintro ⟨-, hlabels⟩
  have hmem := hlabels (key.toList, value.toList)
  simp only [Sample.read, labelMap, hs, hs', mem_labelTexts_iff hkey, OrdMap.get_set_self,
    Option.some.injEq, true_iff] at hmem
  exact hne hmem.symm

/-- A sample with a label of its own is of another series than one without. -/
lemma not_sameSeries_of_plain {s s' : Sample N} {key value : String} (hkey : key ∈ ownLabels)
    (hs : s.own = none) (hs' : s'.own = some (key, value)) :
    ¬ SameSeries (s.read numbers l.labels) (s'.read numbers l.labels) := by
  rintro ⟨-, hlabels⟩
  have hmem := hlabels (key.toList, value.toList)
  simp only [Sample.read, labelMap, hs, hs', mem_labelTexts_iff hkey, OrdMap.get_set_self,
    iff_true] at hmem
  exact (l.valid _ (l.labels.mem_entries_iff.mpr hmem)).2 hkey

lemma not_sameSeries_of_name {s s' : Sample N} (hne : s.name ≠ s'.name) :
    ¬ SameSeries (s.read numbers labels) (s'.read numbers labels) :=
  fun h => hne (String.toList_inj.mp h.1)

lemma sameSeries_of_eq {s s' : Sample N} (hname : s.name = s'.name) (hown : s.own = s'.own) :
    SameSeries (s.read numbers labels) (s'.read numbers labels) := by
  refine ⟨congrArg String.toList hname, fun label => ?_⟩
  rw [Sample.read, Sample.read, hown]

lemma SameSeries.symm {a b : TextFormat.Sample} (h : SameSeries a b) : SameSeries b a :=
  ⟨h.1.symm, fun label => (h.2 label).symm⟩

/-! ### Histograms -/

/-- What is appended to the name of a histogram. -/
def parts : List String := ["_bucket", "_sum", "_count"]

/-- The last letters of a name with a part. -/
lemma tail_append_part (f : String) {part : String} (hpart : part ∈ parts) :
    (f ++ part).toList.reverse.take 4 = part.toList.reverse.take 4 := by
  have hlength : ∀ part ∈ parts, 4 ≤ part.toList.reverse.length := by decide
  rw [String.toList_append, List.reverse_append,
    List.take_append_of_le_length (hlength part hpart)]

/-- The parts of two histograms have different names. -/
lemma append_part_inj {f f' part part' : String} (hpart : part ∈ parts) (hpart' : part' ∈ parts)
    (h : f ++ part = f' ++ part') : f = f' ∧ part = part' := by
  have hends : ∀ q ∈ parts, ∀ q' ∈ parts,
      q.toList.reverse.take 4 = q'.toList.reverse.take 4 → q = q' := by decide
  have hsame : part.toList.reverse.take 4 = part'.toList.reverse.take 4 := by
    rw [← tail_append_part f hpart, h, tail_append_part f' hpart']
  obtain rfl := hends part hpart part' hpart' hsame
  have hlist := congrArg String.toList h
  rw [String.toList_append, String.toList_append] at hlist
  exact ⟨String.toList_inj.mp (List.append_cancel_right hlist), rfl⟩

variable (numbers) in
/-- The texts of the bounds of a histogram. -/
def boundTexts (stats : HistogramStats N) (convertToSeconds : Bool) : List String :=
  (bounds numbers stats convertToSeconds).map numbers.toString

/-- The bounds of a histogram make it well-formed. -/
def Distinct (texts : List String) : Prop := texts.Nodup ∧ "+Inf" ∉ texts

/-- The standard bounds are different. -/
lemma distinct_standard (stats : HistogramStats N) : Distinct (boundTexts numbers stats true) := by
  have hbuckets : STANDARD_BUCKETS = (literals.take 11).map Prod.fst := rfl
  have htexts : boundTexts numbers stats true = (literals.take 11).map Prod.snd := by
    rw [boundTexts, bounds, if_pos rfl, hbuckets, List.map_map, List.map_map]
    exact List.map_congr_left fun e he => numbers.toString_lit e (List.mem_of_mem_take he)
  rw [Distinct, htexts]
  decide

/-- **The samples of a histogram are different series exactly if its bounds are.** -/
lemma pairwise_histogram_iff (name : String) (stats : HistogramStats N) (convertToSeconds : Bool) :
    (((histogramSamples numbers name stats convertToSeconds).map
      (Sample.read numbers l.labels)).Pairwise fun a b => ¬ SameSeries a b) ↔
      Distinct (boundTexts numbers stats convertToSeconds) := by
  have hname (part part' : String) (hpart : part ∈ parts) (hpart' : part' ∈ parts)
      (hne : part ≠ part') : name ++ part ≠ name ++ part' :=
    fun h => hne (append_part_inj hpart hpart' h).2
  rw [List.pairwise_map, histogramSamples, List.pairwise_append, List.pairwise_map, Distinct,
    boundTexts, List.Nodup, List.pairwise_map]
  constructor
  · rintro ⟨hbuckets, -, hlast⟩
    refine ⟨hbuckets.imp fun {b b'} hnot heq => hnot (sameSeries_of_eq _ rfl (by rw [heq])), ?_⟩
    intro hmem
    obtain ⟨bucket, hbucket, hinf⟩ := List.mem_map.mp hmem
    exact hlast _ (List.mem_map_of_mem hbucket) _ List.mem_cons_self
      (sameSeries_of_eq _ rfl (by rw [hinf]))
  · rintro ⟨hbuckets, hinf⟩
    refine ⟨hbuckets.imp fun {b b'} hne => ?_, ?_, ?_⟩
    · exact not_sameSeries_of_own l List.mem_cons_self rfl rfl hne
    · simp only [List.pairwise_cons, List.mem_cons, List.not_mem_nil, or_false, false_implies,
        implies_true, List.Pairwise.nil, and_true, forall_eq_or_imp, forall_eq]
      exact ⟨⟨not_sameSeries_of_name _ (hname _ _ (by decide) (by decide) (by decide)),
        not_sameSeries_of_name _ (hname _ _ (by decide) (by decide) (by decide))⟩,
        not_sameSeries_of_name _ (hname _ _ (by decide) (by decide) (by decide))⟩
    · intro a ha b hb
      obtain ⟨bucket, hbucket, rfl⟩ := List.mem_map.mp ha
      simp only [List.mem_cons, List.not_mem_nil, or_false] at hb
      rcases hb with rfl | rfl | rfl
      · refine not_sameSeries_of_own l List.mem_cons_self rfl rfl fun heq => hinf ?_
        exact heq ▸ List.mem_map_of_mem hbucket
      · exact not_sameSeries_of_name _ (hname _ _ (by decide) (by decide) (by decide))
      · exact not_sameSeries_of_name _ (hname _ _ (by decide) (by decide) (by decide))

/-! ### Families -/

/-- A family whose samples have its name. -/
def Family.Flat (family : Family N) : Prop := ∀ s ∈ family.samples, s.name = family.name

/-- A family whose samples have its name and no label of their own. -/
def Family.Bare (family : Family N) : Prop :=
  ∀ s ∈ family.samples, s.name = family.name ∧ s.own = none

/-- A family whose samples are the parts of a histogram. -/
def Family.HasParts (family : Family N) : Prop :=
  ∀ s ∈ family.samples, (s.name = family.name ++ "_bucket" ∧ ∃ bound, s.own = some ("le", bound)) ∨
    s.own = none ∧ (s.name = family.name ++ "_sum" ∨ s.name = family.name ++ "_count")

lemma bare_single (name help kind : String) (value : Value N) :
    (single name help kind value).Bare := by
  intro s hs
  rw [List.mem_singleton.mp hs]
  exact ⟨rfl, rfl⟩

lemma flat_labelled (name help label : String) (counts : OrdMap String N) :
    (labelled name help label counts).Flat := by
  intro s hs
  obtain ⟨e, -, rfl⟩ := List.mem_map.mp hs
  rfl

lemma hasParts_histogram (name help : String) (stats : HistogramStats N)
    (convertToSeconds : Bool) :
    (histogram numbers name help stats convertToSeconds).HasParts := by
  intro s hs
  simp only [histogram, histogramSamples, List.mem_append, List.mem_map, List.mem_cons,
    List.not_mem_nil, or_false] at hs
  rcases hs with ⟨bucket, -, rfl⟩ | rfl | rfl | rfl
  · exact .inl ⟨rfl, _, rfl⟩
  · exact .inl ⟨rfl, _, rfl⟩
  · exact .inr ⟨rfl, .inl rfl⟩
  · exact .inr ⟨rfl, .inr rfl⟩

/-! ### Names -/

def builtinNames : List String :=
  ["http_requests_total", "http_requests_active", "http_requests_per_second",
    "http_requests_by_status_total", "http_request_duration_seconds",
    "http_requests_by_method_total", "http_requests_by_route_total",
    "process_memory_heap_used_bytes", "process_memory_heap_total_bytes",
    "process_memory_external_bytes", "process_memory_rss_bytes", "process_cpu_user_seconds_total",
    "process_cpu_system_seconds_total", "process_uptime_seconds",
    "process_event_loop_lag_seconds"]

/-- The names of the custom counters and gauges. -/
def flatNames (custom : CustomMetrics N) : List String :=
  (custom.counters.keys ++ custom.gauges.keys).map sanitizeMetricName

/-- The names of the custom histograms and timers. -/
def histogramNames (custom : CustomMetrics N) : List String :=
  custom.histograms.keys.map sanitizeMetricName ++
    custom.timers.keys.map fun name => sanitizeMetricName name ++ "_seconds"

lemma map_name_families (snapshot : MetricsSnapshot N) :
    (families numbers snapshot).map Family.name =
      builtinNames ++ flatNames snapshot.custom ++ histogramNames snapshot.custom := by
  simp only [families, customFamilies, flatNames, histogramNames, OrdMap.keys, List.map_append,
    List.map_map, List.append_assoc]
  rfl

variable (numbers) in
/-- The names that are used are different, the custom ones also from the parts of histograms, and
so are the bounds of each custom histogram. -/
structure Unambiguous (snapshot : MetricsSnapshot N) : Prop where
  names : (builtinNames ++ flatNames snapshot.custom ++ histogramNames snapshot.custom).Nodup
  parts : ∀ name ∈ flatNames snapshot.custom,
    ∀ f ∈ "http_request_duration_seconds" :: histogramNames snapshot.custom,
      name ≠ f ++ "_sum" ∧ name ≠ f ++ "_count"
  bounds : ∀ e ∈ snapshot.custom.histograms.entries, Distinct (boundTexts numbers e.2 false)

/-- A built-in name is not that of a part of a histogram. -/
lemma builtin_ne_append_part {name part : String} (hname : name ∈ builtinNames)
    (hpart : part ∈ parts) (f : String) : name ≠ f ++ part := by
  have hends : ∀ name ∈ builtinNames, ∀ part ∈ parts,
      name.toList.reverse.take 4 ≠ part.toList.reverse.take 4 := by decide
  rintro rfl
  exact hends _ hname part hpart (tail_append_part f hpart)

/-- Every family is a built-in one, a custom counter or gauge, or a histogram. -/
lemma family_cases {snapshot : MetricsSnapshot N} {family : Family N}
    (h : family ∈ families numbers snapshot) :
    (family.Flat ∧ family.name ∈ builtinNames) ∨
      (family.Bare ∧ family.name ∈ flatNames snapshot.custom) ∨
      (family.HasParts ∧
        family.name ∈ "http_request_duration_seconds" :: histogramNames snapshot.custom) := by
  have hflat {name help kind : String} {value : Value N} (hname : name ∈ builtinNames) :
      (single name help kind value).Flat ∧ (single name help kind value).name ∈ builtinNames :=
    ⟨fun s hs => (bare_single name help kind value s hs).1, hname⟩
  have hlabelled {name help label : String} {counts : OrdMap String N}
      (hname : name ∈ builtinNames) : (labelled name help label counts).Flat ∧
        (labelled name help label counts).name ∈ builtinNames :=
    ⟨flat_labelled name help label counts, hname⟩
  rw [families, List.mem_append, List.mem_append] at h
  rcases h with (h | h) | h
  · simp only [httpFamilies, List.mem_cons, List.not_mem_nil, or_false] at h
    rcases h with rfl | rfl | rfl | rfl | rfl | rfl | rfl
    · exact .inl (hflat (by decide))
    · exact .inl (hflat (by decide))
    · exact .inl (hflat (by decide))
    · exact .inl (hlabelled (by decide))
    · exact .inr (.inr ⟨hasParts_histogram _ _ _ _, List.mem_cons_self⟩)
    · exact .inl (hlabelled (by decide))
    · exact .inl (hlabelled (by decide))
  · simp only [processFamilies, List.mem_cons, List.not_mem_nil, or_false] at h
    rcases h with rfl | rfl | rfl | rfl | rfl | rfl | rfl | rfl
    all_goals exact .inl (hflat (by decide))
  · simp only [customFamilies, List.mem_append, List.mem_map] at h
    rcases h with ((⟨e, he, rfl⟩ | ⟨e, he, rfl⟩) | ⟨e, he, rfl⟩) | ⟨e, he, rfl⟩
    · refine .inr (.inl ⟨bare_single _ _ _ _, List.mem_map_of_mem (List.mem_append_left _ ?_)⟩)
      exact List.mem_map_of_mem he
    · refine .inr (.inl ⟨bare_single _ _ _ _, List.mem_map_of_mem (List.mem_append_right _ ?_)⟩)
      exact List.mem_map_of_mem he
    · refine .inr (.inr ⟨hasParts_histogram _ _ _ _, List.mem_cons_of_mem _ ?_⟩)
      exact List.mem_append_left _ (List.mem_map_of_mem (List.mem_map_of_mem he))
    · refine .inr (.inr ⟨hasParts_histogram _ _ _ _, List.mem_cons_of_mem _ ?_⟩)
      exact List.mem_append_right _
        (List.mem_map_of_mem (f := fun name => sanitizeMetricName name ++ "_seconds")
          (List.mem_map_of_mem he))

/-- The samples of a labelled family are different series. -/
lemma pairwise_labelled {label : String} (hlabel : label ∈ ownLabels) (name help : String)
    (counts : OrdMap String N) :
    (((labelled name help label counts).samples.map
      (Sample.read numbers l.labels)).Pairwise fun a b => ¬ SameSeries a b) := by
  have hkeys := counts.nodup
  rw [List.Nodup, List.pairwise_map] at hkeys
  rw [List.pairwise_map, labelled, List.pairwise_map]
  exact hkeys.imp fun {e e'} hne => not_sameSeries_of_own l hlabel rfl rfl hne

/-- The samples of each family are different series. -/
lemma pairwise_family {snapshot : MetricsSnapshot N} (h : Unambiguous numbers snapshot)
    {family : Family N} (hfamily : family ∈ families numbers snapshot) :
    (family.samples.map (Sample.read numbers l.labels)).Pairwise fun a b => ¬ SameSeries a b := by
  rw [families, List.mem_append, List.mem_append] at hfamily
  rcases hfamily with (hfamily | hfamily) | hfamily
  · simp only [httpFamilies, List.mem_cons, List.not_mem_nil, or_false] at hfamily
    rcases hfamily with rfl | rfl | rfl | rfl | rfl | rfl | rfl
    · exact List.pairwise_singleton _ _
    · exact List.pairwise_singleton _ _
    · exact List.pairwise_singleton _ _
    · exact pairwise_labelled l (by decide) _ _ _
    · exact (pairwise_histogram_iff l _ _ _).mpr (distinct_standard _)
    · exact pairwise_labelled l (by decide) _ _ _
    · exact pairwise_labelled l (by decide) _ _ _
  · simp only [processFamilies, List.mem_cons, List.not_mem_nil, or_false] at hfamily
    rcases hfamily with rfl | rfl | rfl | rfl | rfl | rfl | rfl | rfl
    all_goals exact List.pairwise_singleton _ _
  · simp only [customFamilies, List.mem_append, List.mem_map] at hfamily
    rcases hfamily with ((⟨e, he, rfl⟩ | ⟨e, he, rfl⟩) | ⟨e, he, rfl⟩) | ⟨e, he, rfl⟩
    · exact List.pairwise_singleton _ _
    · exact List.pairwise_singleton _ _
    · exact (pairwise_histogram_iff l _ _ _).mpr (h.bounds e he)
    · exact (pairwise_histogram_iff l _ _ _).mpr (distinct_standard _)

/-- A sample that is no part of a histogram and one that is. -/
lemma not_sameSeries_part {snapshot : MetricsSnapshot N} (h : Unambiguous numbers snapshot)
    {family family' : Family N} (hflat : (family.Flat ∧ family.name ∈ builtinNames) ∨
      (family.Bare ∧ family.name ∈ flatNames snapshot.custom))
    (hparts : family'.HasParts ∧
      family'.name ∈ "http_request_duration_seconds" :: histogramNames snapshot.custom)
    {s s' : Sample N} (hs : s ∈ family.samples) (hs' : s' ∈ family'.samples) :
    ¬ SameSeries (s.read numbers l.labels) (s'.read numbers l.labels) := by
  obtain ⟨part, hpart, hname, hown⟩ : ∃ part ∈ parts, s'.name = family'.name ++ part ∧
      (part = "_bucket" ∧ (∃ bound, s'.own = some ("le", bound)) ∨ part = "_sum" ∨
        part = "_count") := by
    rcases hparts.1 s' hs' with ⟨hname, hbound⟩ | ⟨-, hname | hname⟩
    · exact ⟨_, by decide, hname, .inl ⟨rfl, hbound⟩⟩
    · exact ⟨_, by decide, hname, .inr (.inl rfl)⟩
    · exact ⟨_, by decide, hname, .inr (.inr rfl)⟩
  rcases hflat with ⟨hflat, hbuiltin⟩ | ⟨hbare, hcustom⟩
  · refine not_sameSeries_of_name _ ?_
    rw [hflat s hs, hname]
    exact builtin_ne_append_part hbuiltin hpart _
  · obtain ⟨hsum, hcount⟩ := h.parts _ hcustom _ hparts.2
    obtain ⟨hfirst, hplain⟩ := hbare s hs
    rcases hown with ⟨-, bound, hbound⟩ | rfl | rfl
    · exact not_sameSeries_of_plain l List.mem_cons_self hplain hbound
    · exact not_sameSeries_of_name _ (by rw [hfirst, hname]; exact hsum)
    · exact not_sameSeries_of_name _ (by rw [hfirst, hname]; exact hcount)

/-- The samples of two families are different series. -/
lemma not_sameSeries_families {snapshot : MetricsSnapshot N} (h : Unambiguous numbers snapshot)
    {family family' : Family N} (hfamily : family ∈ families numbers snapshot)
    (hfamily' : family' ∈ families numbers snapshot) (hne : family.name ≠ family'.name)
    {s s' : Sample N} (hs : s ∈ family.samples) (hs' : s' ∈ family'.samples) :
    ¬ SameSeries (s.read numbers l.labels) (s'.read numbers l.labels) := by
  have hflat {f : Family N} (hf : (f.Flat ∧ f.name ∈ builtinNames) ∨
      (f.Bare ∧ f.name ∈ flatNames snapshot.custom)) : f.Flat :=
    hf.elim And.left fun hbare s hs => (hbare.1 s hs).1
  rcases or_assoc.mpr (family_cases hfamily) with hcase | hcase
  · rcases or_assoc.mpr (family_cases hfamily') with hcase' | hcase'
    · refine not_sameSeries_of_name _ ?_
      rw [hflat hcase s hs, hflat hcase' s' hs']
      exact hne
    · exact not_sameSeries_part l h hcase hcase' hs hs'
  · rcases or_assoc.mpr (family_cases hfamily') with hcase' | hcase'
    · exact fun hsame => not_sameSeries_part l h hcase' hcase hs' hs hsame.symm
    · have hname {f : Family N} (hf : f.HasParts) {s : Sample N} (hs : s ∈ f.samples) :
          ∃ part ∈ parts, s.name = f.name ++ part := by
        rcases hf s hs with ⟨hname, -⟩ | ⟨-, hname | hname⟩
        · exact ⟨_, by decide, hname⟩
        · exact ⟨_, by decide, hname⟩
        · exact ⟨_, by decide, hname⟩
      obtain ⟨part, hpart, hs⟩ := hname hcase.1 hs
      obtain ⟨part', hpart', hs'⟩ := hname hcase'.1 hs'
      refine not_sameSeries_of_name _ fun heq => hne ?_
      rw [hs, hs'] at heq
      exact (append_part_inj hpart hpart' heq).1

/-- A custom counter or gauge is exported under its name. -/
lemma exists_bare {snapshot : MetricsSnapshot N} {name : String}
    (h : name ∈ flatNames snapshot.custom) :
    ∃ family ∈ families numbers snapshot, family.kind ≠ "histogram" ∧
      ∃ s ∈ family.samples, s.name = name ∧ s.own = none := by
  obtain ⟨key, hkey, rfl⟩ := List.mem_map.mp h
  rcases List.mem_append.mp hkey with hkey | hkey
  · obtain ⟨e, he, rfl⟩ := List.mem_map.mp hkey
    refine ⟨single (sanitizeMetricName e.1) "Custom counter metric" "counter" (.plain e.2), ?_,
      by simp [single], _, List.mem_cons_self, rfl, rfl⟩
    refine List.mem_append_right _ ?_
    simp only [customFamilies, List.mem_append, List.mem_map]
    exact .inl (.inl (.inl ⟨e, he, rfl⟩))
  · obtain ⟨e, he, rfl⟩ := List.mem_map.mp hkey
    refine ⟨single (sanitizeMetricName e.1) "Custom gauge metric" "gauge" (.plain e.2), ?_,
      by simp [single], _, List.mem_cons_self, rfl, rfl⟩
    refine List.mem_append_right _ ?_
    simp only [customFamilies, List.mem_append, List.mem_map]
    exact .inl (.inl (.inr ⟨e, he, rfl⟩))

lemma histogram_mem_families {snapshot : MetricsSnapshot N} {name : String}
    {stats : HistogramStats N} (h : (name, stats) ∈ snapshot.custom.histograms.entries) :
    histogram numbers (sanitizeMetricName name) "Custom histogram metric" stats false ∈
      families numbers snapshot := by
  refine List.mem_append_right _ ?_
  simp only [customFamilies, List.mem_append, List.mem_map]
  exact .inl (.inr ⟨_, h, rfl⟩)

lemma exists_histogram {snapshot : MetricsSnapshot N} {f : String}
    (h : f ∈ "http_request_duration_seconds" :: histogramNames snapshot.custom) :
    ∃ help stats convertToSeconds,
      histogram numbers f help stats convertToSeconds ∈ families numbers snapshot := by
  rcases List.mem_cons.mp h with rfl | h
  · refine ⟨"HTTP request latency in seconds", snapshot.http.latency, true,
      List.mem_append_left _ (List.mem_append_left _ ?_)⟩
    simp [httpFamilies]
  rcases List.mem_append.mp h with h | h
  · obtain ⟨key, hkey, rfl⟩ := List.mem_map.mp h
    obtain ⟨e, he, rfl⟩ := List.mem_map.mp hkey
    exact ⟨_, _, _, histogram_mem_families he⟩
  · obtain ⟨key, hkey, rfl⟩ := List.mem_map.mp h
    obtain ⟨e, he, rfl⟩ := List.mem_map.mp hkey
    refine ⟨"Custom timer metric in seconds", e.2, true, List.mem_append_right _ ?_⟩
    simp only [customFamilies, List.mem_append, List.mem_map]
    exact .inr ⟨e, he, rfl⟩

/-! ### The whole text -/

/-- **The text is well-formed exactly if the names are unambiguous.** -/
theorem wellFormed_iff (snapshot : MetricsSnapshot N) :
    WellFormed (exportPrometheus numbers snapshot l.labels) ↔ Unambiguous numbers snapshot := by
  have htypes : (readTypes (exportPrometheus numbers snapshot l.labels)).Nodup ↔
      ((families numbers snapshot).map Family.name).Nodup := by
    rw [readTypes_exportPrometheus]
    have hmap : ((families numbers snapshot).map fun family => family.name.toList) =
        ((families numbers snapshot).map Family.name).map String.toList := by
      rw [List.map_map]
      rfl
    rw [hmap]
    exact List.nodup_map_iff fun _ _ => String.toList_inj.mp
  have hsamples := readSamples_exportPrometheus numbers l.labels snapshot
  constructor
  · rintro ⟨hnodup, hpairwise⟩
    rw [htypes, map_name_families] at hnodup
    rw [hsamples, List.pairwise_flatMap] at hpairwise
    obtain ⟨hwithin, hacross⟩ := hpairwise
    have hsymm : Std.Symm fun family family' : Family N =>
        ∀ a ∈ family.samples.map (Sample.read numbers l.labels),
          ∀ b ∈ family'.samples.map (Sample.read numbers l.labels), ¬ SameSeries a b :=
      ⟨fun _ _ hnot b hb a ha hsame => hnot a ha b hb hsame.symm⟩
    refine ⟨hnodup, fun name hname f hf => ?_, fun e he => ?_⟩
    · obtain ⟨family, hfamily, hkind, s, hs, rfl, hown⟩ := @exists_bare _ numbers _ _ hname
      obtain ⟨help, stats, convertToSeconds, hhistogram⟩ := @exists_histogram _ numbers _ _ hf
      have hne : family ≠ histogram numbers f help stats convertToSeconds :=
        fun he => hkind (congrArg Family.kind he)
      have hapart {s' : Sample N} (hs' : s' ∈ histogramSamples numbers f stats convertToSeconds)
          (hown' : s'.own = none) : s.name ≠ s'.name := fun heq =>
        hacross.forall hfamily hhistogram hne _ (List.mem_map_of_mem hs) _
          (List.mem_map_of_mem hs') (sameSeries_of_eq _ heq (hown.trans hown'.symm))
      constructor
      · refine @hapart ⟨f ++ "_sum", none, .fixed (seconds numbers convertToSeconds stats.sum) 6⟩
          (List.mem_append_right _ ?_) rfl
        exact List.mem_cons_of_mem _ List.mem_cons_self
      · refine @hapart ⟨f ++ "_count", none, .plain stats.count⟩
          (List.mem_append_right _ ?_) rfl
        exact List.mem_cons_of_mem _ (List.mem_cons_of_mem _ List.mem_cons_self)
    · exact (pairwise_histogram_iff l (sanitizeMetricName e.1) e.2 false).mp
        (hwithin _ (histogram_mem_families he))
  · intro h
    refine ⟨htypes.mpr (map_name_families snapshot ▸ h.names), ?_⟩
    have hnames := h.names
    rw [← map_name_families, List.Nodup, List.pairwise_map] at hnames
    rw [hsamples, List.pairwise_flatMap]
    refine ⟨fun family hfamily => pairwise_family l h hfamily, ?_⟩
    refine hnames.imp_of_mem fun {family family'} hfamily hfamily' hne a ha b hb => ?_
    obtain ⟨s, hs, rfl⟩ := List.mem_map.mp ha
    obtain ⟨s', hs', rfl⟩ := List.mem_map.mp hb
    exact not_sameSeries_families l h hfamily hfamily' hne hs hs'

/-- Nothing has been recorded but two custom counters. -/
def twoCounters : MetricsSnapshot ℚ where
  http := ⟨0, 0, 0, ∅, ⟨0, 0, 0⟩, ∅, ∅⟩
  process := ⟨0, 0, 0, 0, 0, 0, 0, 0⟩
  custom := ⟨((∅ : OrdMap String ℚ).set "cache.hits" 1).set "cache_hits" 2, ∅, ∅, ∅⟩

/-- The two counters are declared under one name. -/
theorem not_wellFormed :
    ¬ ∀ (N : Type) (numbers : Numbers N) (l : LabelMap) (snapshot : MetricsSnapshot N),
      WellFormed (exportPrometheus numbers snapshot l.labels) := by
  intro h
  have htypes := (h ℚ exact ⟨∅, nofun⟩ twoCounters).types
  rw [readTypes_exportPrometheus] at htypes
  revert htypes
  decide +kernel

end Blaize.Metrics.Prometheus
