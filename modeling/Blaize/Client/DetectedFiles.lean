import Blaize.Client.FormData

/-!
Which of the files that the client detects are sent as files.

* `Found`: where the detection finds a file object, and which one;
* `containsFileObjectsRecursive_iff`: the detection succeeds exactly if there is such a place;
* `file_mem_iff`: what a field of the form is made of;
* `Direct`: a `Blob` as the value of a property, or in an array of nothing but files;
* `allSent_iff_direct`: **every detected file is sent as a file exactly if each is direct**;
* `not_allSent`: a picture in a nested object is sent as `{}`.
-/

namespace Blaize.Client.Multipart

open Value

lemma ok_of_bind {ε α β : Type} {x : Except ε α} {f : α → Except ε β} {b : β}
    (h : (x >>= f) = .ok b) : ∃ a, x = .ok a ∧ f a = .ok b := by
  cases x with
  | error e => cases h
  | ok a => exact ⟨a, rfl, h⟩

/-! ### Entries -/

namespace Value

lemma toString_inj {m n : ℕ} (h : toString m = toString n) : m = n := by
  have hdigits : Nat.toDigits 10 m = Nat.toDigits 10 n := by
    simpa [toString, Nat.repr] using congrArg String.toList h
  rw [← Nat.ofDigitChars_ten_toDigits (n := m), hdigits, Nat.ofDigitChars_ten_toDigits]

lemma nodup_indexed (items : List Value) :
    ((items.zipIdx.map fun e => (toString e.2, e.1)).map Prod.fst).Nodup := by
  rw [List.map_map]
  have hidx : (items.zipIdx.map Prod.snd).Nodup := by
    rw [List.zipIdx_map_snd]
    exact List.nodup_range'
  have h := hidx.map (f := fun n : ℕ => toString n) fun m n hmn => toString_inj hmn
  rwa [List.map_map] at h

/-- The values of an array are its items. -/
lemma get_indexed {items : List Value} {key : String} {v : Value} :
    (indexed items).get key = some v ↔ ∃ i : ℕ, items[i]? = some v ∧ key = toString i := by
  have hget := OrdMap.get_foldl_set (nodup_indexed items) ∅ key
  rw [OrdMap.get_empty, Option.or_none] at hget
  rw [indexed, properties, hget, ← OrdMap.mem_iff_find (nodup_indexed items), List.mem_map]
  constructor
  · rintro ⟨⟨w, i⟩, hmem, heq⟩
    obtain ⟨rfl, rfl⟩ := Prod.mk.inj heq
    exact ⟨i, List.mk_mem_zipIdx_iff_getElem?.mp hmem, rfl⟩
  · rintro ⟨i, hi, rfl⟩
    exact ⟨(v, i), List.mk_mem_zipIdx_iff_getElem?.mpr hi, rfl⟩

end Value

lemma not_isFileObject_array (items : List Value) : isFileObject (.array items) = false := rfl

lemma isFileObject_of_isFileOrBlob {v : Value} (h : isFileOrBlob v = true) :
    isFileObject v = true := by
  rw [isFileObject, h, Bool.true_or]

lemma isFileOrBlob_of_isBlobInstance {v : Value} (h : v.isBlobInstance = true) :
    isFileOrBlob v = true := by
  rw [isFileOrBlob, isBlob, h]
  simp

/-! ### What is detected -/

/-- Within so many levels the value has a file object at the end of a path of property
names; below a file object nothing is searched. -/
inductive Found : ℕ → Value → List String → Value → Prop
  | here {levels v} (h : isFileObject v = true) : Found levels v [] v
  | child {levels v key w path o} (h : isFileObject v = false) (hw : v.entries.get key = some w)
      (hfound : Found levels w path o) : Found (levels + 1) v (key :: path) o

/-- A file object holds no other one. -/
lemma Found.eq_nil {levels : ℕ} {v o : Value} {path : List String} (h : Found levels v path o)
    (hv : isFileObject v = true) : path = [] ∧ o = v := by
  cases h with
  | here => exact ⟨rfl, rfl⟩
  | child hne => rw [hv] at hne; cases hne

lemma isFileObject_of_isNullish {v : Value} (h : v.isNullish = true) : isFileObject v = false := by
  cases v with
  | undefined => rfl
  | null => rfl
  | _ => cases h

lemma any_values_iff (m : OrdMap String Value) (p : Value → Bool) :
    m.values.any p = true ↔ ∃ key w, m.get key = some w ∧ p w = true := by
  rw [List.any_eq_true]
  constructor
  · rintro ⟨w, hw, hp⟩
    obtain ⟨⟨key, w⟩, hmem, rfl⟩ := List.mem_map.mp hw
    exact ⟨key, w, m.mem_entries_iff.mp hmem, hp⟩
  · rintro ⟨key, w, hw, hp⟩
    exact ⟨w, List.mem_map.mpr ⟨(key, w), m.mem_entries_iff.mpr hw, rfl⟩, hp⟩

/-- One level of the detection. -/
lemma containsFileObjectsRecursive_succ {levels : ℕ} {v : Value} (hv : isFileObject v = false) :
    containsFileObjectsRecursive (levels + 1) v = true ↔
      ∃ key w, v.entries.get key = some w ∧ containsFileObjectsRecursive levels w = true := by
  rw [containsFileObjectsRecursive.eq_def]
  cases v with
  | array items =>
      rw [if_neg (by simp [isNullish]), if_neg (by simp [hv]), List.any_eq_true]
      constructor
      · rintro ⟨w, hw, hcontains⟩
        obtain ⟨i, hi⟩ := List.getElem?_of_mem hw
        exact ⟨toString i, w, get_indexed.mpr ⟨i, hi, rfl⟩, hcontains⟩
      · rintro ⟨key, w, hw, hcontains⟩
        obtain ⟨i, hi, -⟩ := get_indexed.mp hw
        exact ⟨w, List.mem_of_getElem? hi, hcontains⟩
  | object id brand own inherited =>
      rw [if_neg (by simp [isNullish]), if_neg (by simp [hv])]
      exact any_values_iff _ _
  | _ => simp [isNullish, hv, entries]

lemma containsFileObjectsRecursive_of_isFileObject {levels : ℕ} {v : Value}
    (hv : isFileObject v = true) : containsFileObjectsRecursive levels v = true := by
  have hnullish : ¬ v.isNullish = true := fun h => by
    rw [isFileObject_of_isNullish h] at hv
    cases hv
  unfold containsFileObjectsRecursive
  rw [if_neg hnullish, if_pos hv]

/-- **The detection succeeds exactly if some path leads to a file object.** -/
lemma containsFileObjectsRecursive_iff {levels : ℕ} {v : Value} :
    containsFileObjectsRecursive levels v = true ↔ ∃ path o, Found levels v path o := by
  induction levels generalizing v with
  | zero =>
      constructor
      · intro h
        unfold containsFileObjectsRecursive at h
        split at h
        · cases h
        split at h
        next hv => exact ⟨[], v, .here hv⟩
        next => cases h
      · rintro ⟨path, o, hfound⟩
        cases hfound with
        | here hv => exact containsFileObjectsRecursive_of_isFileObject hv
  | succ levels ih =>
      cases hv : isFileObject v with
      | true =>
          exact iff_of_true (containsFileObjectsRecursive_of_isFileObject hv) ⟨[], v, .here hv⟩
      | false =>
          rw [containsFileObjectsRecursive_succ hv]
          constructor
          · rintro ⟨key, w, hw, hcontains⟩
            obtain ⟨path, o, hfound⟩ := ih.mp hcontains
            exact ⟨key :: path, o, .child hv hw hfound⟩
          · rintro ⟨path, o, hfound⟩
            cases hfound with
            | here h => rw [hv] at h; cases h
            | child _ hw hfound => exact ⟨_, _, hw, ih.mpr ⟨_, _, hfound⟩⟩

/-! ### What a field is made of -/

section Fields

variable {texts : Texts}

lemma entry_eq_file {v o : Value} :
    FormData.entry texts v = .file o ↔ o = v ∧ v.isBlobInstance = true := by
  rw [FormData.entry]
  split
  next h => exact ⟨fun he => ⟨(FormEntry.file.inj he).symm, h⟩, fun ⟨he, _⟩ => he ▸ rfl⟩
  next h => exact ⟨fun he => (nomatch he), fun ⟨_, hb⟩ => absurd hb h⟩

lemma jsonEntry_ne_file {v o : Value} {entry : FormEntry}
    (h : FormData.jsonEntry texts v = .ok entry) : entry ≠ .file o := by
  obtain ⟨json, -, h⟩ := ok_of_bind h
  obtain rfl := Except.ok.inj h
  exact fun he => nomatch he

/-- The entries of a text that `JSON.stringify` makes. -/
lemma notMem_json {v o : Value} {entries : List FormEntry}
    (h : (do
        let entry ← FormData.jsonEntry texts v
        pure [entry] : Except String (List FormEntry)) = .ok entries) : .file o ∉ entries := by
  obtain ⟨entry, hjson, h⟩ := ok_of_bind h
  obtain rfl := Except.ok.inj h
  exact fun hmem => jsonEntry_ne_file hjson (List.mem_singleton.mp hmem).symm

/-- **A field has a file entry exactly for a `Blob` that is its value, or an item of its
value, an array of nothing but files.** -/
lemma file_mem_iff {v o : Value} {entries : List FormEntry}
    (h : appendToFormData texts v = .ok entries) :
    .file o ∈ entries ↔ o.isBlobInstance = true ∧
      (o = v ∨ ∃ items, v = .array items ∧ items.all isFileOrBlob = true ∧ o ∈ items) := by
  rw [appendToFormData.eq_def] at h
  by_cases hskip : (v.isNullish || v.isFunction) = true
  · rw [if_pos hskip] at h
    obtain rfl := Except.ok.inj h
    refine iff_of_false List.not_mem_nil fun ⟨hb, ho⟩ => ?_
    cases v with
    | undefined | null | function =>
        rcases ho with rfl | ⟨items, he, -⟩
        · simp [isBlobInstance, brand] at hb
        · cases he
    | _ => simp [isNullish, isFunction] at hskip
  rw [if_neg hskip] at h
  by_cases hfile : isFileOrBlob v = true
  · rw [if_pos hfile] at h
    obtain rfl := Except.ok.inj h
    rw [List.mem_singleton, eq_comm, entry_eq_file]
    constructor
    · rintro ⟨rfl, hb⟩
      exact ⟨hb, .inl rfl⟩
    · rintro ⟨hb, rfl | ⟨items, rfl, -⟩⟩
      · exact ⟨rfl, hb⟩
      · cases hfile
  rw [if_neg hfile] at h
  have hv : ¬ (o.isBlobInstance = true ∧ o = v) := by
    rintro ⟨hb, rfl⟩
    exact hfile (isFileOrBlob_of_isBlobInstance hb)
  cases v with
  | array items =>
      dsimp only at h
      by_cases hempty : items.isEmpty = true
      · rw [if_pos hempty] at h
        obtain rfl := Except.ok.inj h
        refine iff_of_false List.not_mem_nil fun ⟨hb, ho⟩ => ?_
        rcases ho with ho | ⟨items', he, -, ho⟩
        · exact hv ⟨hb, ho⟩
        · obtain rfl := Value.array.inj he
          rw [List.isEmpty_iff.mp hempty] at ho
          cases ho
      rw [if_neg hempty] at h
      by_cases hall : items.all isFileOrBlob = true
      · rw [if_pos hall] at h
        obtain rfl := Except.ok.inj h
        rw [List.mem_map]
        constructor
        · rintro ⟨w, hw, he⟩
          obtain ⟨rfl, hb⟩ := entry_eq_file.mp he
          exact ⟨hb, .inr ⟨items, rfl, hall, hw⟩⟩
        · rintro ⟨hb, ho | ⟨items', he, -, ho⟩⟩
          · exact absurd ⟨hb, ho⟩ hv
          · obtain rfl := Value.array.inj he
            exact ⟨o, ho, entry_eq_file.mpr ⟨rfl, hb⟩⟩
      · rw [if_neg hall] at h
        refine iff_of_false (notMem_json h) fun ⟨hb, ho⟩ => ?_
        rcases ho with ho | ⟨items', he, hall', -⟩
        · exact hv ⟨hb, ho⟩
        · obtain rfl := Value.array.inj he
          exact hall hall'
  | object id brand own inherited =>
      refine iff_of_false (notMem_json h) fun ⟨hb, ho⟩ => ?_
      rcases ho with ho | ⟨items, he, -⟩
      · exact hv ⟨hb, ho⟩
      · cases he
  | _ =>
      obtain rfl := Except.ok.inj h
      refine iff_of_false (by simp) fun ⟨hb, ho⟩ => ?_
      rcases ho with ho | ⟨items, he, -⟩
      · exact hv ⟨hb, ho⟩
      · cases he

end Fields

/-! ### The form -/

section Form

variable {texts : Texts}

lemma mem_appendAll {fields : List (String × Value)} {formData : FormData}
    (h : appendAll texts fields = .ok formData) {key : String} {entry : FormEntry} :
    (key, entry) ∈ formData ↔ ∃ v entries, (key, v) ∈ fields ∧
      appendToFormData texts v = .ok entries ∧ entry ∈ entries := by
  induction fields generalizing formData with
  | nil =>
      obtain rfl := Except.ok.inj h
      simp
  | cons field fields ih =>
      obtain ⟨name, value⟩ := field
      obtain ⟨entries, hvalue, h⟩ := ok_of_bind h
      obtain ⟨rest, hrest, h⟩ := ok_of_bind h
      obtain rfl := Except.ok.inj h
      rw [List.mem_append, ih hrest, List.mem_map]
      constructor
      · rintro (⟨e, he, heq⟩ | ⟨v, es, hv, hes, he⟩)
        · obtain ⟨rfl, rfl⟩ := Prod.mk.inj heq
          exact ⟨value, entries, List.mem_cons_self, hvalue, he⟩
        · exact ⟨v, es, List.mem_cons_of_mem _ hv, hes, he⟩
      · rintro ⟨v, es, hv, hes, he⟩
        rcases List.mem_cons.mp hv with heq | hv
        · obtain ⟨rfl, rfl⟩ := Prod.mk.inj heq
          obtain rfl := Except.ok.inj (hes.symm.trans hvalue)
          exact .inl ⟨entry, he, rfl⟩
        · exact .inr ⟨v, es, hv, hes, he⟩

/-- Every field of a form that was built has entries. -/
lemma append_ok_of_mem {fields : List (String × Value)} {formData : FormData}
    (h : appendAll texts fields = .ok formData) {key : String} {v : Value}
    (hv : (key, v) ∈ fields) : ∃ entries, appendToFormData texts v = .ok entries := by
  induction fields generalizing formData with
  | nil => cases hv
  | cons field fields ih =>
      obtain ⟨entries, hvalue, h⟩ := ok_of_bind h
      obtain ⟨rest, hrest, -⟩ := ok_of_bind h
      rcases List.mem_cons.mp hv with rfl | hv
      · exact ⟨entries, hvalue⟩
      · exact ih hrest hv

/-- `Object.assign` key by key. -/
lemma get_assign (target : OrdMap String Value) (source : Value) (key : String) :
    (assign target source).get key =
      if key = "__proto__" then target.get key
      else (source.entries.get key).or (target.get key) := by
  have hfold : ∀ (l : List (String × Value)) (target : OrdMap String Value),
      (l.map Prod.fst).Nodup →
      (l.foldl (fun t e => if e.1 = "__proto__" then t else t.set e.1 e.2) target).get key =
        if key = "__proto__" then target.get key else (OrdMap.find key l).or (target.get key) := by
    intro l
    induction l with
    | nil => intro target _; simp [OrdMap.find]
    | cons e l ih =>
        intro target hnodup
        obtain ⟨name, v⟩ := e
        rw [List.map_cons, List.nodup_cons] at hnodup
        rw [List.foldl_cons, ih _ hnodup.2, OrdMap.find]
        by_cases hproto : name = "__proto__"
        · subst hproto
          rw [if_pos rfl]
          by_cases hkey : key = "__proto__"
          · rw [if_pos hkey, if_pos hkey]
          · rw [if_neg hkey, if_neg hkey, if_neg (Ne.symm hkey)]
        · rw [if_neg hproto, OrdMap.get_set]
          by_cases hkey : name = key
          · subst hkey
            rw [if_neg hproto, if_neg hproto, if_pos rfl, if_pos rfl,
              OrdMap.find_eq_none_iff.mpr hnodup.1]
            rfl
          · rw [if_neg hkey, if_neg hkey]
  exact hfold _ target source.entries.nodup

/-- The value of a field: that of the files, or else that of the body. -/
lemma get_allData (args : InternalRequestArgs) (key : String) :
    (allData args).get key =
      if key = "__proto__" then none
      else (args.files.entries.get key).or (args.body.entries.get key) := by
  rw [allData, get_assign, get_assign, OrdMap.get_empty]
  by_cases hkey : key = "__proto__"
  · rw [if_pos hkey, if_pos hkey, if_pos hkey]
  · rw [if_neg hkey, if_neg hkey, if_neg hkey, Option.or_none]

/-- The file entries of a form, by the values of the merged data. -/
lemma file_mem_form_iff {args : InternalRequestArgs} {formData : FormData}
    (h : buildFormData texts args = .ok formData) {key : String} {o : Value} :
    (key, .file o) ∈ formData ↔ o.isBlobInstance = true ∧ ∃ v, (allData args).get key = some v ∧
      (o = v ∨ ∃ items, v = .array items ∧ items.all isFileOrBlob = true ∧ o ∈ items) := by
  rw [mem_appendAll h]
  constructor
  · rintro ⟨v, entries, hv, hentries, he⟩
    obtain ⟨hb, ho⟩ := (file_mem_iff hentries).mp he
    exact ⟨hb, v, (allData args).mem_entries_iff.mp hv, ho⟩
  · rintro ⟨hb, v, hv, ho⟩
    have hmem := (allData args).mem_entries_iff.mpr hv
    obtain ⟨entries, hentries⟩ := append_ok_of_mem h hmem
    exact ⟨v, entries, hmem, hentries, (file_mem_iff hentries).mpr ⟨hb, ho⟩⟩

end Form

/-! ### Sent as files -/

/-- The two arguments that are searched. -/
inductive Part where
  | body
  | files
  deriving DecidableEq

/-- A part of the arguments. -/
def InternalRequestArgs.part (args : InternalRequestArgs) : Part → Value
  | .body => args.body
  | .files => args.files

/-- A file object that the detection finds, with its path. -/
def Detected (args : InternalRequestArgs) (part : Part) (path : List String) (o : Value) : Prop :=
  Found 3 (args.part part) path o

/-- The top-level key of a path into the body is one of the files argument too. -/
def Overridden (args : InternalRequestArgs) (part : Part) (path : List String) : Prop :=
  part = .body ∧ ∃ key ∈ path.head?, args.files.entries.has key = true

/-- The form has the file object as an entry of its own, under its top-level key. -/
def Sent (formData : FormData) (path : List String) (o : Value) : Prop :=
  ∃ key ∈ path.head?, (key, .file o) ∈ formData

/-- A `Blob` that is the value of a property, or an item of one that is an array of nothing
but files; `__proto__` is no such property. -/
def Direct (args : InternalRequestArgs) (part : Part) (path : List String) (o : Value) : Prop :=
  o.isBlobInstance = true ∧ ∃ key rest, path = key :: rest ∧ key ≠ "__proto__" ∧
    (rest = [] ∨ ∃ items, (args.part part).entries.get key = some (.array items) ∧
      items.all isFileOrBlob = true)

/-- Every file that is found is sent, unless its property is overridden. -/
def AllSent (args : InternalRequestArgs) (formData : FormData) : Prop :=
  ∀ part path o, Detected args part path o → ¬ Overridden args part path → Sent formData path o

/-- Every file that is found is a property of its part, unless it is overridden. -/
def AllDirect (args : InternalRequestArgs) : Prop :=
  ∀ part path o, Detected args part path o → ¬ Overridden args part path →
    Direct args part path o

section Sent

variable {texts : Texts} {args : InternalRequestArgs} {formData : FormData} {part : Part}
  {path : List String} {o : Value}

/-- What is not overridden is in the merged data. -/
lemma get_allData_of_not_overridden {key : String} {rest : List String} {v : Value}
    (hkey : key ≠ "__proto__") (hv : (args.part part).entries.get key = some v)
    (hover : ¬ Overridden args part (key :: rest)) : (allData args).get key = some v := by
  rw [get_allData, if_neg hkey]
  cases part with
  | files =>
      rw [show args.files.entries.get key = some v from hv]
      rfl
  | body =>
      have hnone : args.files.entries.get key = none := by
        rw [← OrdMap.has_eq_false_iff, ← Bool.not_eq_true]
        exact fun hhas => hover ⟨rfl, key, rfl, hhas⟩
      rw [hnone, Option.none_or]
      exact hv

/-- **A detected file that is not overridden is sent exactly if it is direct.** -/
lemma sent_iff_direct (h : buildFormData texts args = .ok formData)
    (hdetected : Detected args part path o) (hover : ¬ Overridden args part path) :
    Sent formData path o ↔ Direct args part path o := by
  cases hdetected with
  | here =>
      refine iff_of_false ?_ ?_
      · rintro ⟨key, hkey, -⟩
        cases hkey
      · rintro ⟨-, key, rest, he, -⟩
        cases he
  | @child _ _ key w rest _ hv hw hfound =>
      have hget : key ≠ "__proto__" → (allData args).get key = some w := fun hkey =>
        get_allData_of_not_overridden hkey hw hover
      have hsent : Sent formData (key :: rest) o ↔ (key, .file o) ∈ formData := by
        simp [Sent]
      rw [hsent, file_mem_form_iff h]
      constructor
      · rintro ⟨hb, v, hget', ho⟩
        have hkey : key ≠ "__proto__" := by
          rintro rfl
          rw [get_allData, if_pos rfl] at hget'
          cases hget'
        obtain rfl := Option.some.inj ((hget hkey).symm.trans hget')
        refine ⟨hb, key, rest, rfl, hkey, ?_⟩
        rcases ho with rfl | ⟨items, rfl, hall, ho⟩
        · exact .inl (hfound.eq_nil
            (isFileObject_of_isFileOrBlob (isFileOrBlob_of_isBlobInstance hb))).1
        · exact .inr ⟨items, hw, hall⟩
      · rintro ⟨hb, key', rest', he, hkey, hrest⟩
        obtain ⟨rfl, rfl⟩ := List.cons.inj he
        refine ⟨hb, w, hget hkey, ?_⟩
        rcases hrest with rfl | ⟨items, hitems, hall⟩
        · cases hfound
          exact .inl rfl
        · obtain rfl := Option.some.inj (hw.symm.trans hitems)
          refine .inr ⟨items, rfl, hall, ?_⟩
          cases hfound with
          | here hv' => rw [not_isFileObject_array] at hv'; cases hv'
          | @child _ _ i x _ _ _ hx hfound =>
              obtain ⟨n, hn, -⟩ := get_indexed.mp hx
              have hmem := List.mem_of_getElem? hn
              have hfile := isFileObject_of_isFileOrBlob (List.all_eq_true.mp hall x hmem)
              rw [(hfound.eq_nil hfile).2]
              exact hmem

end Sent

/-! ### Requests -/

section Requests

variable {letters : Js.CaseMapping} {texts : Texts} {config : ClientConfig} {method : String}
  {args : InternalRequestArgs} {correlationId : Option String} {options : RequestOptions}
  {formData : FormData}

/-- The body of the options is that of the arguments. -/
lemma requestBody_of_buildRequestOptions
    (h : buildRequestOptions texts letters config method args correlationId = .ok options) :
    ∃ headers, requestBody texts (letters.toUpperCase method) args headers =
      .ok (options.body, options.headers) := by
  rw [buildRequestOptions.eq_def] at h
  obtain ⟨⟨body, headers⟩, hbody, h⟩ := ok_of_bind h
  obtain rfl := Except.ok.inj h
  exact ⟨_, hbody⟩

/-- **Multipart is chosen for detected files, in a method that has a body**, and then the form
is that of the arguments. -/
lemma formData_of_buildRequestOptions
    (h : buildRequestOptions texts letters config method args correlationId = .ok options)
    (hbody : options.body = .formData formData) :
    (∃ part path o, Detected args part path o) ∧
      letters.toUpperCase method ∉ methodsWithoutBody ∧
        buildFormData texts args = .ok formData := by
  obtain ⟨headers, hrequest⟩ := requestBody_of_buildRequestOptions h
  rw [hbody, requestBody] at hrequest
  split at hrequest
  · cases hrequest
  next hmethod =>
  split at hrequest
  next hfiles =>
      obtain ⟨form, hform, hrequest⟩ := ok_of_bind hrequest
      obtain ⟨he, -⟩ := Prod.mk.inj (Except.ok.inj hrequest)
      obtain rfl := RequestBody.formData.inj he
      refine ⟨?_, by simpa using hmethod, hform⟩
      rcases (Bool.or_eq_true _ _).mp hfiles with hfiles | hfiles
      · exact ⟨.files, containsFileObjectsRecursive_iff.mp hfiles⟩
      · exact ⟨.body, containsFileObjectsRecursive_iff.mp hfiles⟩
  next =>
  split at hrequest
  · cases hrequest
  next =>
      obtain ⟨json, -, hrequest⟩ := ok_of_bind hrequest
      obtain ⟨he, -⟩ := Prod.mk.inj (Except.ok.inj hrequest)
      cases json with
      | none => cases he
      | some json => cases he

/-- **Every detected file is sent as a file exactly if each is direct**: whenever a request
is multipart. -/
theorem allSent_iff_direct (letters : Js.CaseMapping) (texts : Texts) (config : ClientConfig)
    (method : String) (args : InternalRequestArgs) (correlationId : Option String)
    (options : RequestOptions) (formData : FormData)
    (h : buildRequestOptions texts letters config method args correlationId = .ok options)
    (hbody : options.body = .formData formData) : AllSent args formData ↔ AllDirect args := by
  obtain ⟨-, -, hform⟩ := formData_of_buildRequestOptions h hbody
  refine forall_congr' fun part => forall_congr' fun path => forall_congr' fun o => ?_
  exact forall_congr' fun hdetected => forall_congr' fun hover =>
    sent_iff_direct hform hdetected hover

end Requests

/-! ### A picture in an object -/

/-- A file. -/
def picture : Value :=
  .object 0 .file []
    [("name", .string "a.png"), ("size", .number "3"), ("type", .string "image/png")]

/-- `{ user: { avatar: picture } }`. -/
def nested : InternalRequestArgs where
  body := .object 1 .other [("user", .object 2 .other [("avatar", picture)] [])] []

/-- The texts of an object with a file in it. -/
def nestedTexts : Texts where
  stringify := fun _ => .ok (some "\x7b\"avatar\":\x7b\x7d\x7d")
  toString := fun _ => "[object Object]"

/-- A mapping that changes no case. -/
def sameCase : Js.CaseMapping := ⟨id, id, Js.id_id_text⟩

/-- The form in which the file has become a text. -/
def nestedForm : FormData := [("user", .text "\x7b\"avatar\":\x7b\x7d\x7d")]

lemma buildRequestOptions_nested :
    buildRequestOptions nestedTexts sameCase {} "POST" nested none =
      .ok { method := "POST", headers := ∅, body := .formData nestedForm, timeout := 30000 } := rfl

lemma detected_nested : Detected nested .body ["user", "avatar"] picture :=
  .child rfl rfl (.child rfl rfl (.here rfl))

/-- The picture is the reason for the form, which has only the text of an empty object. -/
theorem not_allSent : ¬ ∀ (letters : Js.CaseMapping) (texts : Texts) (config : ClientConfig)
    (method : String) (args : InternalRequestArgs) (correlationId : Option String)
    (options : RequestOptions) (formData : FormData),
    buildRequestOptions texts letters config method args correlationId = .ok options →
      options.body = .formData formData → AllSent args formData := by
  intro h
  have hall := h sameCase nestedTexts {} "POST" nested none _ _ buildRequestOptions_nested rfl
  obtain ⟨key, -, hmem⟩ := hall .body ["user", "avatar"] picture detected_nested fun hover => by
    obtain ⟨-, key, -, hhas⟩ := hover
    cases hhas
  simp [nestedForm] at hmem

/-- `{ avatar: picture }` as the files. -/
def direct : InternalRequestArgs where
  files := .object 1 .other [("avatar", picture)] []

/-- A picture that is the value of a property is sent. -/
theorem allSent_picture : AllSent direct [("avatar", .file picture)] := by
  refine (allSent_iff_direct sameCase nestedTexts {} "POST" direct none
    { method := "POST", headers := ∅, body := .formData [("avatar", .file picture)],
      timeout := 30000 } _ rfl rfl).mpr ?_
  intro part path o hdetected _
  cases part with
  | body =>
      cases hdetected with
      | here h => cases h
      | child h hw _ => cases hw
  | files =>
      cases hdetected with
      | here h => cases h
      | @child _ _ key w rest _ h hw hfound =>
          have hset : ((∅ : OrdMap String Value).set "avatar" picture).get key = some w := hw
          rw [OrdMap.get_set] at hset
          split at hset
          next hkey =>
              obtain rfl := Option.some.inj hset
              obtain ⟨rfl, rfl⟩ := hfound.eq_nil rfl
              exact ⟨rfl, key, [], rfl, hkey ▸ by decide, .inl rfl⟩
          next => cases hset

end Blaize.Client.Multipart
