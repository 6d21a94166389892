import Blaize.Metrics.Exposition

/-!
The labels of the exposition.

For a sample with a label of its own the labels are formatted, parsed and formatted again, and
the parser takes the text apart at each comma and equals sign, escaped or not.

* `LabelMap`: the labels that a configuration may have;
* `parseLabels_formatLabels`: what is parsed, when no value has a separator;
* `parsed_parseLabels`: what is parsed never has one;
* `Clean`: no value has a separator or anything to escape;
* `exact_iff_clean`: **the labels are parsed back, and every sample carries exactly them, if and
  only if they are clean**.
-/

namespace Blaize.Metrics.Prometheus

/-- A label name of the format. -/
def IsLabelName (name : String) : Prop :=
  (name.toList.head?.any fun c => c.isAlpha || c = '_') = true ∧
    ∀ c ∈ name.toList, (c.isAlphanum || c = '_') = true

instance (name : String) : Decidable (IsLabelName name) := inferInstanceAs (Decidable (_ ∧ _))

/-- The labels that samples have of their own. -/
def ownLabels : List String := ["le", "status", "method", "route"]

structure LabelMap where
  labels : OrdMap String String
  valid : ∀ e ∈ labels.entries, IsLabelName e.1 ∧ e.1 ∉ ownLabels

/-- The characters at which the parser takes a text apart, or which it leaves out. -/
def separators : List Char := [',', '=', '"', '\x7d']

/-- A value without a separator. -/
def Plain (value : String) : Prop := ∀ c ∈ separators, c ∉ value.toList

/-- Labels that come back as they are. -/
def LabelMap.Clean (l : LabelMap) : Prop :=
  ∀ e ∈ l.labels.entries,
    e.1 ≠ "__proto__" ∧ ∀ c ∈ separators ++ ['\\', '\n'], c ∉ e.2.toList

/-! ### Names -/

lemma IsLabelName.isNameChar {name : String} (h : IsLabelName name) :
    ∀ c ∈ name.toList, TextFormat.isNameChar c = true := by
  intro c hc
  have halnum := h.2 c hc
  rw [TextFormat.isNameChar, halnum, Bool.true_or]

lemma IsLabelName.sanitize {name : String} (h : IsLabelName name) :
    sanitizeMetricName name = name := by
  refine sanitizeMetricName_of_valid ?_ h.isNameChar
  obtain ⟨c, hc, hfirst⟩ := (Option.any_eq_true _ _).mp h.1
  exact (Option.any_eq_true _ _).mpr ⟨c, hc, by rw [hfirst, Bool.true_or]⟩

lemma IsLabelName.ne_nil {name : String} (h : IsLabelName name) : name.toList ≠ [] := by
  intro hnil
  have hfirst := h.1
  rw [hnil] at hfirst
  cases hfirst

lemma IsLabelName.notMem {name : String} (h : IsLabelName name) {c : Char}
    (hc : TextFormat.isNameChar c = false) : c ∉ name.toList := by
  intro hmem
  rw [h.isNameChar c hmem] at hc
  cases hc

lemma isLabelName_ownLabels : ∀ name ∈ ownLabels, IsLabelName name := by decide

/-! ### Parsing what was formatted -/

lemma escapeLabel_notMem {value : String} {c : Char} (h : c ∉ value.toList)
    (hc : c ∉ ['\\', 'n']) : c ∉ (escapeLabel value).toList := by
  rw [escapeLabel_toList]
  intro hmem
  rcases TextFormat.mem_escape hmem with hmem | hmem
  · exact h hmem
  · exact hc hmem

/-- A label as it stands in the text. -/
def pairText (e : String × String) : List Char :=
  TextFormat.renderLabel (e.1.toList, e.2.toList)

lemma parsePair_pairText (m : OrdMap String String) {e : String × String}
    (hkey : IsLabelName e.1) (hplain : Plain e.2) :
    parsePair m (pairText e) = assign m e.1 (escapeLabel e.2) := by
  have hequals : '=' ∉ (escapeLabel e.2).toList :=
    escapeLabel_notMem (hplain '=' (by decide)) (by decide)
  have hquote : '"' ∉ (escapeLabel e.2).toList :=
    escapeLabel_notMem (hplain '"' (by decide)) (by decide)
  rw [escapeLabel_toList] at hequals hquote
  have hvalue : '=' ∉ '"' :: TextFormat.escape e.2.toList ++ ['"'] := by simp [hequals]
  have hsplit : (pairText e).splitOn '=' =
      [e.1.toList, '"' :: TextFormat.escape e.2.toList ++ ['"']] := by
    rw [pairText, TextFormat.renderLabel, List.append_assoc, List.cons_append,
      List.splitOn_append_cons_self_of_not_mem (hkey.notMem rfl),
      List.splitOn_eq_singleton hvalue]
  have hfilter : ('"' :: TextFormat.escape e.2.toList ++ ['"']).filter (· ≠ '"') =
      TextFormat.escape e.2.toList := by
    have hself : (TextFormat.escape e.2.toList).filter (· ≠ '"') = TextFormat.escape e.2.toList :=
      List.filter_eq_self.mpr fun c hc => decide_eq_true fun he => hquote (he ▸ hc)
    simpa [List.filter_append] using hself
  rw [parsePair, hsplit]
  simp only [hfilter]
  rw [if_pos ⟨hkey.ne_nil, by simp⟩, String.ofList_toList, ← escapeLabel_toList,
    String.ofList_toList]

variable (l : LabelMap)

lemma labelTexts_eq : labelTexts l.labels =
    l.labels.entries.map fun e => (e.1.toList, e.2.toList) := by
  refine List.map_congr_left fun e he => ?_
  change ((sanitizeMetricName e.1).toList, e.2.toList) = _
  rw [(l.valid e he).1.sanitize]

lemma notMem_pairText {e : String × String} (hkey : IsLabelName e.1) (hplain : Plain e.2) {c : Char}
    (hc : c = ',' ∨ c = '\x7d') : c ∉ pairText e := by
  have hvalue : c ∉ TextFormat.escape e.2.toList := by
    rw [← escapeLabel_toList]
    rcases hc with rfl | rfl
    · exact escapeLabel_notMem (hplain _ (by decide)) (by decide)
    · exact escapeLabel_notMem (hplain _ (by decide)) (by decide)
  have hname : c ∉ e.1.toList := by
    rcases hc with rfl | rfl
    · exact hkey.notMem rfl
    · exact hkey.notMem rfl
  have hmarks : c ≠ '=' ∧ c ≠ '"' := by
    rcases hc with rfl | rfl
    · decide
    · decide
  simp [pairText, TextFormat.renderLabel, hvalue, hname, hmarks]

/-- The text between the braces, as the regular expression gets it. -/
lemma matchBraces_braces {content : List Char} (hne : content ≠ []) (h : '\x7d' ∉ content) :
    matchBraces ('\x7b' :: (content ++ ['\x7d'])) = some content := by
  have hgroup : (content ++ ['\x7d']).takeWhile (· ≠ '\x7d') = content := by
    have hall : ∀ c ∈ content, decide (c ≠ '\x7d') = true := fun c hc =>
      decide_eq_true fun he => h (he ▸ hc)
    rw [List.takeWhile_append_of_pos hall]
    simp
  rw [matchBraces, hgroup]
  simp [hne]

/-- **What is parsed of the labels when no value has a separator**: the escaped values. -/
lemma parseLabels_formatLabels (hplain : ∀ e ∈ l.labels.entries, Plain e.2) :
    parseLabels (formatLabels l.labels) =
      l.labels.entries.foldl (fun m e => assign m e.1 (escapeLabel e.2)) ∅ := by
  cases hcase : l.labels.entries with
  | nil =>
      rw [formatLabels, if_pos hcase]
      rfl
  | cons first entries =>
      rw [← hcase]
      have hpair : ∀ piece ∈ l.labels.entries.map pairText, ∀ c, c = ',' ∨ c = '\x7d' →
          c ∉ piece := by
        intro piece hpiece c hc
        obtain ⟨e, he, rfl⟩ := List.mem_map.mp hpiece
        exact notMem_pairText (l.valid e he).1 (hplain e he) hc
      have hne : l.labels.entries.map pairText ≠ [] := by simp [hcase]
      generalize hcontent : [','].intercalate (l.labels.entries.map pairText) = content
      have htext : (formatLabels l.labels).toList = '\x7b' :: (content ++ ['\x7d']) := by
        rw [formatLabels_toList, labelTexts_eq,
          TextFormat.renderLabels_of_ne_nil (by simp [hcase]), List.map_map, ← hcontent]
        rfl
      have hsplit : content.splitOn ',' = l.labels.entries.map pairText := by
        rw [← hcontent]
        exact List.splitOn_intercalate ',' (fun piece hpiece => hpair piece hpiece _ (.inl rfl)) hne
      have hbrace : '\x7d' ∉ content := by
        intro hmem
        rw [← hcontent] at hmem
        rcases List.mem_of_mem_intercalate hmem with hmem | ⟨piece, hpiece, hmem⟩
        · cases List.mem_singleton.mp hmem
        · exact hpair piece hpiece _ (.inr rfl) hmem
      have hfull : content ≠ [] := by
        intro hnil
        rw [hnil, hcase, List.map_cons] at hsplit
        have hfirst : pairText first = [] := (List.cons.inj hsplit).1.symm
        simp [pairText, TextFormat.renderLabel] at hfirst
      have hguard : ¬ (formatLabels l.labels = "" ∨ formatLabels l.labels = "\x7b\x7d") := by
        rintro (h | h)
        · rw [h] at htext
          cases htext
        · rw [h] at htext
          have hlength := congrArg List.length htext
          exact hfull (by simpa using hlength)
      rw [parseLabels, if_neg hguard, htext, matchBraces_braces hfull hbrace]
      simp only [hsplit, List.foldl_map]
      refine List.foldl_ext _ _ _ fun m e he => ?_
      exact parsePair_pairText m (l.valid e he).1 (hplain e he)

/-! ### What is parsed has no separator -/

/-- What parsing can get. -/
def Parsed (m : OrdMap String String) : Prop :=
  ∀ e ∈ m.entries, e.1 ≠ "__proto__" ∧ Plain e.2

lemma mem_assign {m : OrdMap String String} {key value : String} {e : String × String}
    (h : e ∈ (assign m key value).entries) :
    e ∈ m.entries ∨ e = (key, value) ∧ key ≠ "__proto__" := by
  rw [assign] at h
  split at h
  · exact .inl h
  next hkey =>
      obtain ⟨k, v⟩ := e
      rw [OrdMap.mem_entries_iff, OrdMap.get_set] at h
      split at h
      next hk => exact .inr ⟨Prod.ext hk.symm (Option.some.inj h).symm, hkey⟩
      next => exact .inl (m.mem_entries_iff.mpr h)

lemma parsed_parsePair {m : OrdMap String String} (h : Parsed m) {pair : List Char}
    (hcomma : ',' ∉ pair) (hbrace : '\x7d' ∉ pair) : Parsed (parsePair m pair) := by
  rw [parsePair]
  split
  next key value rest hsplit =>
      have hvalue : ∀ c ∈ value, c ∈ pair ∧ c ≠ '=' := fun c hc =>
        List.mem_of_mem_splitOn (hsplit ▸ List.mem_cons_of_mem _ List.mem_cons_self) hc
      split
      · intro e he
        rcases mem_assign he with he | ⟨rfl, hkey⟩
        · exact h e he
        · refine ⟨hkey, fun c hc hmem => ?_⟩
          rw [String.toList_ofList] at hmem
          obtain ⟨hmem, hquote⟩ := List.mem_filter.mp hmem
          obtain ⟨hpair, hequals⟩ := hvalue c hmem
          simp only [separators, List.mem_cons, List.not_mem_nil, or_false] at hc
          rcases hc with rfl | rfl | rfl | rfl
          · exact hcomma hpair
          · exact hequals rfl
          · cases hquote
          · exact hbrace hpair
      · exact h
  next => exact h

lemma brace_notMem_of_matchBraces {text group : List Char} (h : matchBraces text = some group) :
    '\x7d' ∉ group := by
  induction text with
  | nil => cases h
  | cons c text ih =>
      rw [matchBraces] at h
      split at h
      · rw [← Option.some.inj h]
        intro hmem
        simpa using List.mem_takeWhile_imp hmem
      · exact ih h

/-- **A value that was parsed has no separator.** -/
lemma parsed_parseLabels (text : String) : Parsed (parseLabels text) := by
  have hempty : Parsed ∅ := fun e he => by cases he
  rw [parseLabels]
  split
  · exact hempty
  split
  next group hgroup =>
      have hbrace := brace_notMem_of_matchBraces hgroup
      have hpieces : ∀ piece ∈ group.splitOn ',', ',' ∉ piece ∧ '\x7d' ∉ piece := fun piece hp =>
        ⟨fun hc => (List.mem_of_mem_splitOn hp hc).2 rfl,
          fun hc => hbrace (List.mem_of_mem_splitOn hp hc).1⟩
      exact List.foldlRecOn _ _ hempty fun m hm piece hp =>
        parsed_parsePair hm (hpieces piece hp).1 (hpieces piece hp).2
  next => exact hempty

/-! ### Clean labels -/

lemma plain_of_clean (h : l.Clean) : ∀ e ∈ l.labels.entries, Plain e.2 :=
  fun e he c hc => (h e he).2 c (List.mem_append_left _ hc)

lemma escapeLabel_eq_self_iff {value : String} :
    escapeLabel value = value ↔
      '\\' ∉ value.toList ∧ '"' ∉ value.toList ∧ '\n' ∉ value.toList := by
  rw [← TextFormat.escape_eq_self_iff, ← escapeLabel_toList, String.toList_inj]

/-- Clean labels are parsed as they were. -/
lemma parseLabels_of_clean (h : l.Clean) : parseLabels (formatLabels l.labels) = l.labels := by
  have hassign : ∀ m : OrdMap String String, ∀ e ∈ l.labels.entries,
      assign m e.1 (escapeLabel e.2) = m.set e.1 e.2 := by
    intro m e he
    obtain ⟨hkey, hvalue⟩ := h e he
    have hself : escapeLabel e.2 = e.2 := escapeLabel_eq_self_iff.mpr
      ⟨hvalue _ (by decide), hvalue _ (by decide), hvalue _ (by decide)⟩
    rw [assign, if_neg hkey, hself]
  have hfold := List.foldl_ext _ _ ∅ hassign
  rw [parseLabels_formatLabels l (plain_of_clean l h), hfold]
  exact OrdMap.ext (OrdMap.entries_foldl_set l.labels.nodup)

/-- Labels of which each is among those that were parsed are clean. -/
lemma clean_of_parsed (h : ∀ e ∈ l.labels.entries,
    ∃ e' ∈ (parseLabels (formatLabels l.labels)).entries,
      sanitizeMetricName e'.1 = e.1 ∧ e'.2 = e.2) : l.Clean := by
  have hplain : ∀ e ∈ l.labels.entries, Plain e.2 := by
    intro e he
    obtain ⟨e', he', -, hvalue⟩ := h e he
    exact hvalue ▸ (parsed_parseLabels _ e' he').2
  have hmem : ∀ e' ∈ (parseLabels (formatLabels l.labels)).entries,
      ∃ e ∈ l.labels.entries, e' = (e.1, escapeLabel e.2) ∧ e.1 ≠ "__proto__" := by
    rw [parseLabels_formatLabels l hplain]
    refine List.foldlRecOn _ _ (motive := fun (m : OrdMap String String) => ∀ e' ∈ m.entries,
      ∃ e ∈ l.labels.entries, e' = (e.1, escapeLabel e.2) ∧ e.1 ≠ "__proto__")
      (fun e' he' => by cases he') ?_
    intro m hm e he e' he'
    rcases mem_assign he' with he' | ⟨rfl, hkey⟩
    · exact hm e' he'
    · exact ⟨e, he, rfl, hkey⟩
  intro e he
  obtain ⟨e', he', hkey, hvalue⟩ := h e he
  obtain ⟨e₂, he₂, rfl, hproto⟩ := hmem e' he'
  rw [(l.valid e₂ he₂).1.sanitize] at hkey
  have hsame : e₂ = e := by
    have hget := l.labels.mem_entries_iff.mp he
    have hget₂ := l.labels.mem_entries_iff.mp he₂
    rw [hkey, hget] at hget₂
    exact Prod.ext hkey (Option.some.inj hget₂).symm
  rw [hsame] at hvalue hproto
  obtain ⟨hbackslash, -, hnewline⟩ := escapeLabel_eq_self_iff.mp hvalue
  refine ⟨hproto, fun c hc => ?_⟩
  rcases List.mem_append.mp hc with hc | hc
  · exact hplain e he c hc
  · simp only [List.mem_cons, List.not_mem_nil, or_false] at hc
    rcases hc with rfl | rfl
    · exact hbackslash
    · exact hnewline

/-! ### What the samples carry -/

variable {N : Type} (numbers : Numbers N)

/-- What a line should read as: exactly the labels, and the one of the sample. -/
def Carried (sample : Sample N) (line : TextFormat.Sample) : Prop :=
  line.name = sample.name.toList ∧ line.value = (sample.value.toString numbers).toList ∧
    line.labels.Perm
      ((l.labels.entries ++ sample.own.toList).map fun e => (e.1.toList, e.2.toList))

/-- The samples that are exported, family by family. -/
def samples (snapshot : MetricsSnapshot N) : List (Sample N) :=
  (families numbers snapshot).flatMap Family.samples

/-- A sample has one of four labels of its own, or none. -/
lemma own_samples {snapshot : MetricsSnapshot N} {sample : Sample N}
    (h : sample ∈ samples numbers snapshot) : ∀ e ∈ sample.own, e.1 ∈ ownLabels := by
  have hhistogram : ∀ {name help : String} {stats : HistogramStats N} {convertToSeconds : Bool},
      sample ∈ (histogram numbers name help stats convertToSeconds).samples →
        ∀ e ∈ sample.own, e.1 ∈ ownLabels := by
    intro name help stats convertToSeconds hs e he
    simp only [histogram, histogramSamples, List.mem_append, List.mem_map, List.mem_cons,
      List.not_mem_nil, or_false] at hs
    rcases hs with ⟨bucket, -, rfl⟩ | rfl | rfl | rfl
    · cases he
      exact List.mem_cons_self
    · cases he
      exact List.mem_cons_self
    · cases he
    · cases he
  have hsingle : ∀ {name help kind : String} {value : Value N},
      sample ∈ (single name help kind value).samples → ∀ e ∈ sample.own, e.1 ∈ ownLabels := by
    intro name help kind value hs e he
    rw [List.mem_singleton.mp hs] at he
    cases he
  have hlabelled : ∀ {name help label : String} {counts : OrdMap String N}, label ∈ ownLabels →
      sample ∈ (labelled name help label counts).samples →
        ∀ e ∈ sample.own, e.1 ∈ ownLabels := by
    intro name help label counts hlabel hs e he
    obtain ⟨e', -, rfl⟩ := List.mem_map.mp hs
    cases he
    exact hlabel
  obtain ⟨family, hfamily, hs⟩ := List.mem_flatMap.mp h
  rw [families, List.mem_append, List.mem_append] at hfamily
  rcases hfamily with (hfamily | hfamily) | hfamily
  · simp only [httpFamilies, List.mem_cons, List.not_mem_nil, or_false] at hfamily
    rcases hfamily with rfl | rfl | rfl | rfl | rfl | rfl | rfl
    · exact hsingle hs
    · exact hsingle hs
    · exact hsingle hs
    · exact hlabelled (by decide) hs
    · exact hhistogram hs
    · exact hlabelled (by decide) hs
    · exact hlabelled (by decide) hs
  · simp only [processFamilies, List.mem_cons, List.not_mem_nil, or_false] at hfamily
    rcases hfamily with rfl | rfl | rfl | rfl | rfl | rfl | rfl | rfl
    all_goals exact hsingle hs
  · simp only [customFamilies, List.mem_append, List.mem_map] at hfamily
    rcases hfamily with ((⟨e, -, rfl⟩ | ⟨e, -, rfl⟩) | ⟨e, -, rfl⟩) | ⟨e, -, rfl⟩
    · exact hsingle hs
    · exact hsingle hs
    · exact hhistogram hs
    · exact hhistogram hs

lemma labelTexts_labelMap (h : l.Clean) (own : Option (String × String))
    (hown : ∀ e ∈ own, e.1 ∈ ownLabels) :
    labelTexts (labelMap l.labels own) =
      (l.labels.entries ++ own.toList).map fun e => (e.1.toList, e.2.toList) := by
  cases own with
  | none => rw [labelMap, labelTexts_eq, Option.toList_none, List.append_nil]
  | some e =>
      have hname := hown e rfl
      have hnew : l.labels.get e.1 = none := by
        cases hget : l.labels.get e.1 with
        | none => rfl
        | some v => exact absurd hname (l.valid _ (l.labels.mem_entries_iff.mpr hget)).2
      rw [labelMap, parseLabels_of_clean l h, labelTexts, OrdMap.entries_set_of_get_none hnew,
        List.map_append, ← labelTexts, labelTexts_eq, List.map_append]
      simp [(isLabelName_ownLabels _ hname).sanitize]

/-- The last bucket of the duration of the requests, which is always there. -/
def lastBucket (snapshot : MetricsSnapshot N) : Sample N where
  name := "http_request_duration_seconds" ++ "_bucket"
  own := some ("le", "+Inf")
  value := .plain snapshot.http.latency.count

lemma lastBucket_mem (snapshot : MetricsSnapshot N) :
    lastBucket snapshot ∈ samples numbers snapshot := by
  refine List.mem_flatMap.mpr ⟨histogram numbers "http_request_duration_seconds"
    "HTTP request latency in seconds" snapshot.http.latency true, ?_, ?_⟩
  · simp [families, httpFamilies]
  · rw [histogram, histogramSamples]
    exact List.mem_append_right _ List.mem_cons_self

lemma clean_of_carried {sample : Sample N} {value : String} (hown : sample.own = some ("le", value))
    (h : Carried l numbers sample (sample.read numbers l.labels)) : l.Clean := by
  refine clean_of_parsed l fun e he => ?_
  have hmem : (e.1.toList, e.2.toList) ∈ labelTexts (labelMap l.labels sample.own) :=
    h.2.2.mem_iff.mpr (List.mem_map.mpr ⟨e, List.mem_append_left _ he, rfl⟩)
  rw [hown, labelMap] at hmem
  obtain ⟨⟨k, v⟩, he', heq⟩ := List.mem_map.mp hmem
  have hkey : sanitizeMetricName k = e.1 := String.toList_inj.mp (Prod.mk.inj heq).1
  have hvalue : v = e.2 := String.toList_inj.mp (Prod.mk.inj heq).2
  have hne : "le" ≠ k := by
    rintro rfl
    rw [(isLabelName_ownLabels "le" (by decide)).sanitize] at hkey
    exact (l.valid e he).2 (hkey ▸ List.mem_cons_self)
  rw [OrdMap.mem_entries_iff, OrdMap.get_set_ne _ _ hne, ← OrdMap.mem_entries_iff] at he'
  exact ⟨(k, v), he', hkey, hvalue⟩

/-- **Exactly the clean labels are parsed back, and for exactly these every sample of every
snapshot carries the labels and its own one.** -/
theorem exact_iff_clean (snapshot : MetricsSnapshot N) :
    (parseLabels (formatLabels l.labels) = l.labels ↔ l.Clean) ∧
      (List.Forall₂ (Carried l numbers) (samples numbers snapshot)
        (readSamples (exportPrometheus numbers snapshot l.labels)) ↔ l.Clean) := by
  have hread : readSamples (exportPrometheus numbers snapshot l.labels) =
      (samples numbers snapshot).map (Sample.read numbers l.labels) := by
    rw [readSamples_exportPrometheus, samples, List.map_flatMap]
  refine ⟨⟨fun h => clean_of_parsed l fun e he => ?_, parseLabels_of_clean l⟩, ?_⟩
  · exact ⟨e, h.symm ▸ he, (l.valid e he).1.sanitize, rfl⟩
  rw [hread, List.forall₂_map_right_iff, List.forall₂_same]
  constructor
  · intro h
    have hown : (lastBucket snapshot).own = some ("le", "+Inf") := rfl
    exact clean_of_carried l numbers hown (h _ (lastBucket_mem numbers snapshot))
  · intro h sample hsample
    refine ⟨rfl, rfl, ?_⟩
    rw [Sample.read, labelTexts_labelMap l h _ (own_samples numbers hsample)]

/-- A label with a comma in its value. -/
def zone : LabelMap where
  labels := (∅ : OrdMap String String).set "zone" "a,b"
  valid := by decide

/-- What stands after the comma is lost, in the line of a bucket too. -/
theorem not_exact : ¬ (parseLabels (formatLabels zone.labels) = zone.labels) ∧
    labelTexts (labelMap zone.labels (some ("le", "+Inf"))) =
      [("zone".toList, "a".toList), ("le".toList, "+Inf".toList)] := by
  decide +kernel

end Blaize.Metrics.Prometheus
