import Blaize.Logger.Rendering

/-!
When a line is faithful to the call.

The replacer remembers every object that it has seen, and not those that the place is inside of:
an object that two others share is `[Circular]` the second time.  And the metadata is spread
after `level` and `message`.

* `Faithful`: a line with the level, the message and every metadata value;
* `Tame`: metadata that no defect shows in;
* `entries_copy`, `exists_copy_iff`: what a copy of an object keeps;
* `walkItem_iff`, `walkField_iff`: a walk gets through a value where its text is right;
* `entries_logEntry`: the fields of the line, the level and the message first;
* `write_iff`: the line is JSON, with the members of a run;
* `faithful_iff_tame`: **a line is faithful for tame metadata only**.
-/

namespace Blaize.Logger

open Js Metadata

/-! ### Faithful lines -/

section

variable (g : Metadata)

/-- In a top-level object or array, Errors are printed as `serializeError` has them, or lost. -/
def RendersItem (place : Place g) (json : Option Json) : Prop :=
  match g.errorOf place.2 with
  | some e => json = none ∨ json = some e.json
  | none => Renders g place json

/-- There is a line, and it is a JSON object with the level and the message of the call, and with
every metadata value that is no Error. -/
def Faithful (level : LogLevel) (message : String) (line : Option String) : Prop :=
  ∃ text members, line = some text ∧ Json.parse text = some (.object members) ∧
    OrdMap.find "level" members = some (.string level.name) ∧
    OrdMap.find "message" members = some (.string message) ∧
    ∀ entry ∈ g.entries.entries, g.errorOf entry.2 = none →
      Rule g (RendersItem g) ([g.root], entry.2) (OrdMap.find entry.1 members)

end

/-! ### Tame metadata -/

namespace Metadata

variable (g : Metadata)

/-- The walk through a value of a top-level object or array, whose Errors are serialized. -/
def walkItem (place : Place g) (seen : g.Seen) : Option g.Seen :=
  match g.errorOf place.2 with
  | some _ => some seen
  | none => g.walk (g.size + 1) place seen

/-- The values that a copy of an object keeps. -/
def copied {α : Type} (entries : OrdMap String α) : List α :=
  (entries.entries.filter fun entry => entry.1 ≠ "__proto__").map Prod.snd

/-- The walk through a value of the metadata: the object itself is copied, not met. -/
def walkField : Value g.size → g.Seen → Option g.Seen
  | .primitive p, seen => p.json.map fun _ => seen
  | .object o, seen =>
      let within (values : List (Value g.size)) :=
        values.foldlM (fun seen value => g.walkItem ([o, g.root], value) seen) seen
      match g.node o with
      | .error _ _ => some seen
      | .array items => within items
      | .custom true toJSON _ => toJSON.json.map fun _ => seen
      | .custom false _ entries => within (copied entries)
      | .object entries => within (copied entries)

/-- The entries of the metadata that are put behind `level` and `message`. -/
def others : List (String × Value g.size) :=
  g.entries.entries.filter fun entry => entry.1 ∉ ["level", "message", "__proto__"]

/-- The value is an Error, or is left out. -/
def Dispensable (value : Value g.size) : Prop :=
  g.errorOf value ≠ none ∨ g.leafJson value = some none

/-- The copy of a top-level object says what the object says: it has no method `toJSON`, and
nothing under `__proto__` that would be printed. -/
def Copyable : Value g.size → Prop
  | .primitive _ => True
  | .object o =>
      match g.node o with
      | .custom false _ _ => False
      | .object entries => ∀ value, entries.get "__proto__" = some value → g.Dispensable value
      | _ => True

end Metadata

/-- Metadata that no defect shows in. -/
structure Tame (level : LogLevel) (message : String) (g : Metadata) : Prop where
  level : ∀ value, g.entries.get "level" = some value →
    g.leafJson value = some (some (.string level.name))
  message : ∀ value, g.entries.get "message" = some value →
    g.leafJson value = some (some (.string message))
  proto : ∀ value, g.entries.get "__proto__" = some value → g.Dispensable value
  copyable : ∀ entry ∈ g.entries.entries, entry.1 ≠ "__proto__" → g.Copyable entry.2
  walk : (g.others.foldlM (fun seen entry => g.walkField entry.2 seen) ([] : g.Seen)).isSome

/-! ### The walk through a value of the metadata -/

namespace Metadata

variable {g : Metadata}

lemma walkItem_iff {place : Place g} {seen seen' : g.Seen} :
    g.walkItem place seen = some seen' ↔
      ∃ json, g.stringifyItem (g.serializeItem place.2) seen = some (json, seen') ∧
        RendersItem g place json := by
  simp only [walkItem, serializeItem, RendersItem]
  cases g.errorOf place.2 with
  | some e => simp [stringifyItem]
  | none => exact walk_iff (Nat.lt_succ_of_le (room_le seen))

/-- A value of a top-level object or array has one text only. -/
lemma eq_of_item {path : List (Fin g.size)} (value : Value g.size) (json json' : Option Json)
    (seen seen' : g.Seen) (h : g.stringifyItem (g.serializeItem value) seen = some (json, seen'))
    (h' : RendersItem g (path, value) json') (hsame : json.getD .null = json'.getD .null) :
    json = json' := by
  cases herror : g.errorOf value with
  | some e =>
      simp only [serializeItem, RendersItem, herror] at h h'
      obtain ⟨rfl, -⟩ := Prod.mk.inj (Option.some.inj h)
      rcases h' with rfl | rfl
      · cases hsame
      · rfl
  | none =>
      simp only [serializeItem, RendersItem, herror] at h h'
      exact eq_of_getD_eq ((eq_none_iff_of_stringifyValue h).trans
        (eq_none_iff_of_rule (renders_iff.mp h')).symm) hsame

lemma stringifyAll_map {α β σ : Type} (f : β → σ → Option (Option Json × σ)) (h : α → β)
    (values : List α) (s : σ) :
    stringifyAll f (values.map h) s = stringifyAll (fun value => f (h value)) values s := by
  induction values generalizing s with
  | nil => rfl
  | cons value values ih => simp only [List.map_cons, stringifyAll, ih]

lemma foldl_assign {α β : Type} (f : α → β) (entries : List (String × α))
    (target : OrdMap String β) :
    entries.foldl (fun target entry => assign target entry.1 (f entry.2)) target =
      ((entries.filter fun entry => entry.1 ≠ "__proto__").map
          fun entry => (entry.1, f entry.2)).foldl (fun m e => m.set e.1 e.2) target := by
  induction entries generalizing target with
  | nil => rfl
  | cons entry entries ih =>
      rw [List.foldl_cons, ih, assign]
      split
      next hkey => rw [List.filter_cons_of_neg (by simp [hkey])]
      next hkey => rw [List.filter_cons_of_pos (by simpa using hkey), List.map_cons,
        List.foldl_cons]

lemma entries_copy {α β : Type} (f : α → β) (source : OrdMap String α) :
    (copy f source).entries =
      (source.entries.filter fun entry => entry.1 ≠ "__proto__").map
        fun entry => (entry.1, f entry.2) := by
  rw [copy, foldl_assign]
  refine OrdMap.entries_foldl_set ?_
  rw [List.map_map]
  exact source.nodup.sublist (List.filter_sublist.map _)

lemma values_copy {α β : Type} (f : α → β) (source : OrdMap String α) :
    (copy f source).values = (copied source).map f := by
  rw [OrdMap.values, entries_copy, copied, List.map_map, List.map_map]
  rfl

lemma keys_copy {α β : Type} (f : α → β) (source : OrdMap String α) :
    (copy f source).keys =
      (source.entries.filter fun entry => entry.1 ≠ "__proto__").map Prod.fst := by
  rw [OrdMap.keys, entries_copy, List.map_map]
  rfl

/-- The texts for all entries, from those for the entries that a copy keeps. -/
def fill {α : Type} : List (String × α) → List (Option Json) → List (Option Json)
  | [], _ => []
  | (key, _) :: entries, jsons =>
      if key = "__proto__" then none :: fill entries jsons
      else jsons.headD none :: fill entries jsons.tail

lemma length_fill {α : Type} (entries : List (String × α)) (jsons : List (Option Json)) :
    (fill entries jsons).length = entries.length := by
  induction entries generalizing jsons with
  | nil => rfl
  | cons entry entries ih =>
      rw [fill]
      split <;> rw [List.length_cons, ih, List.length_cons]

lemma members_fill {α : Type} {entries : List (String × α)} {jsons : List (Option Json)}
    (hlength : jsons.length = (entries.filter fun entry => entry.1 ≠ "__proto__").length) :
    members (entries.map Prod.fst) (fill entries jsons) =
      members ((entries.filter fun entry => entry.1 ≠ "__proto__").map Prod.fst) jsons := by
  induction entries generalizing jsons with
  | nil => simp [members]
  | cons entry entries ih =>
      by_cases hkey : entry.1 = "__proto__"
      · rw [List.filter_cons_of_neg (by simp [hkey])] at hlength ⊢
        rw [fill, if_pos hkey, List.map_cons, members_cons, ih hlength]
        rfl
      · rw [List.filter_cons_of_pos (by simpa using hkey)] at hlength ⊢
        obtain ⟨json, jsons, rfl⟩ := List.exists_cons_of_length_eq_add_one hlength
        rw [fill, if_neg hkey, List.map_cons, List.map_cons, members_cons, members_cons,
          List.tail_cons, ih (by simpa using hlength)]
        rfl

lemma forall₂_fill {α : Type} {R : α → Option Json → Prop} {entries : List (String × α)}
    {jsons : List (Option Json)}
    (hlength : jsons.length = (entries.filter fun entry => entry.1 ≠ "__proto__").length) :
    List.Forall₂ R (entries.map Prod.snd) (fill entries jsons) ↔
      List.Forall₂ R ((entries.filter fun entry => entry.1 ≠ "__proto__").map Prod.snd) jsons ∧
        ∀ entry ∈ entries, entry.1 = "__proto__" → R entry.2 none := by
  induction entries generalizing jsons with
  | nil =>
      obtain rfl := List.length_eq_zero_iff.mp hlength
      simp [fill]
  | cons entry entries ih =>
      by_cases hkey : entry.1 = "__proto__"
      · rw [List.filter_cons_of_neg (by simp [hkey])] at hlength ⊢
        rw [fill, if_pos hkey, List.map_cons, List.forall₂_cons, ih hlength,
          List.forall_mem_cons]
        tauto
      · rw [List.filter_cons_of_pos (by simpa using hkey)] at hlength ⊢
        obtain ⟨json, jsons, rfl⟩ := List.exists_cons_of_length_eq_add_one hlength
        rw [fill, if_neg hkey, List.map_cons, List.map_cons, List.forall₂_cons,
          List.tail_cons, ih (by simpa using hlength), List.forall₂_cons, List.forall_mem_cons]
        simp only [List.headD_cons]
        tauto

lemma forall_get_proto_iff {α : Type} {P : α → Prop} {entries : OrdMap String α} :
    (∀ entry ∈ entries.entries, entry.1 = "__proto__" → P entry.2) ↔
      ∀ value, entries.get "__proto__" = some value → P value := by
  constructor
  · intro h value hvalue
    exact h _ ((OrdMap.mem_iff_find entries.nodup).mpr hvalue) rfl
  · rintro h ⟨key, value⟩ hentry rfl
    exact h value ((OrdMap.mem_iff_find entries.nodup).mp hentry)

/-- The text of a copy is right for the object where those of its values are, and where nothing
is lost. -/
lemma exists_copy_iff {α σ : Type} {f : α → σ → Option (Option Json × σ)}
    {R : α → Option Json → Prop} {entries : OrdMap String α} {s s' : σ} :
    (∃ json, (stringifyAll f (copied entries) s).map (fun (jsons, seen) =>
          (some ((Shape.object ((entries.entries.filter fun entry =>
            entry.1 ≠ "__proto__").map Prod.fst)).json jsons), seen)) = some (json, s') ∧
      ∃ jsons, List.Forall₂ R entries.values jsons ∧
        json = some ((Shape.object entries.keys).json jsons)) ↔
      (∃ jsons, stringifyAll f (copied entries) s = some (jsons, s') ∧
        List.Forall₂ R (copied entries) jsons) ∧
        ∀ value, entries.get "__proto__" = some value → R value none := by
  have hlength : ∀ {jsons t}, stringifyAll f (copied entries) s = some (jsons, t) →
      jsons.length = (entries.entries.filter fun entry => entry.1 ≠ "__proto__").length := by
    intro jsons t h
    have hall : List.Forall₂ (fun _ _ => True) (copied entries) jsons :=
      stringifyAll_forall₂ (fun _ _ _ _ _ _ => trivial) h
    rw [← hall.length_eq, copied, List.length_map]
  rw [← forall_get_proto_iff]
  constructor
  · rintro ⟨json, hjson, jsons', hall, rfl⟩
    obtain ⟨⟨jsons, t⟩, hjsons, hresult⟩ := Option.map_eq_some_iff.mp hjson
    obtain ⟨htext, rfl⟩ := Prod.mk.inj hresult
    have hmembers := Json.object.inj (Option.some.inj htext)
    rw [← members_fill (hlength hjsons)] at hmembers
    have hfill := members_injective entries.nodup (by rw [length_fill, List.length_map])
      (by rw [← hall.length_eq, OrdMap.values, List.length_map, List.length_map]) hmembers
    obtain ⟨hcopied, hproto⟩ := (forall₂_fill (hlength hjsons)).mp (hfill ▸ hall)
    exact ⟨⟨jsons, hjsons, hcopied⟩, hproto⟩
  · rintro ⟨⟨jsons, hjsons, hcopied⟩, hproto⟩
    refine ⟨_, by rw [hjsons]; rfl, _, (forall₂_fill (hlength hjsons)).mpr ⟨hcopied, hproto⟩, ?_⟩
    rw [Shape.json, Shape.json, OrdMap.keys, members_fill (hlength hjsons)]

lemma rule_of_leafJson {R : Place g → Option Json → Prop} {path : List (Fin g.size)}
    {value : Value g.size} {json : Option Json} (h : g.leafJson value = some json) :
    Rule g R (path, value) json := by
  cases value with
  | primitive p => exact .primitive h
  | object o =>
      rw [leafJson] at h
      split at h
      next hcontents => exact .leaf hcontents h
      next => cases h

lemma rule_none_iff {R : Place g → Option Json → Prop} {path : List (Fin g.size)}
    {value : Value g.size} : Rule g R (path, value) none ↔ g.leafJson value = some none :=
  ⟨fun h => (eq_none_iff_of_rule h).mp rfl, rule_of_leafJson⟩

lemma rendersItem_none_iff (path : List (Fin g.size)) {value : Value g.size} :
    RendersItem g (path, value) none ↔ g.Dispensable value := by
  rw [RendersItem, Dispensable]
  cases g.errorOf value with
  | some e => simp
  | none => rw [renders_iff, rule_none_iff]; simp

/-- **A value of the metadata**: its text is right where a walk gets through it and the copy says
what the value says. -/
lemma walkField_iff {value : Value g.size} {seen seen' : g.Seen} :
    (g.walkField value seen = some seen' ∧ g.Copyable value) ↔
      ∃ json, g.stringifyField (g.serializeValue value) seen = some (json, seen') ∧
        (g.errorOf value = none → Rule g (RendersItem g) ([g.root], value) json) := by
  have hall : ∀ (o : Fin g.size) (values : List (Value g.size)),
      values.foldlM (fun seen value => g.walkItem ([o, g.root], value) seen) seen = some seen' ↔
        ∃ jsons, stringifyAll (fun value => g.stringifyItem (g.serializeItem value)) values seen =
            some (jsons, seen') ∧
          List.Forall₂ (fun value json => RendersItem g ([o, g.root], value) json) values jsons :=
    fun o values => stringifyAll_iff (P := fun _ => True) (fun _ _ _ _ _ _ _ => trivial)
      (fun _ _ _ _ _ => walkItem_iff) trivial
  cases value with
  | primitive p =>
      simp only [walkField, Copyable, serializeValue, stringifyField, stringifyValue, errorOf,
        rule_primitive_iff]
      cases p.json <;> simp
  | object o =>
      cases hnode : g.node o with
      | error e entries =>
          simp [walkField, Copyable, serializeValue, stringifyField, errorOf, hnode]
      | array items =>
          have hcontents : (g.node o).contents = .values .array items := by rw [hnode]; rfl
          simp only [walkField, Copyable, serializeValue, stringifyField, errorOf, hnode,
            rule_values_iff hcontents, stringifyAll_map, and_true, true_imp_iff]
          rw [hall, ← exists_text_iff (fits_contents hcontents) eq_of_item]
          exact exists_congr fun json => and_congr_right fun hjson =>
            ⟨.inr, fun h => h.resolve_left fun h => ne_circular_of_text hjson h.2⟩
      | custom isDate toJSON entries =>
          have hcontents : (g.node o).contents = .leaf toJSON := by rw [hnode]; rfl
          cases isDate with
          | true =>
              simp only [walkField, Copyable, serializeValue, stringifyField, stringifyValue,
                errorOf, hnode, Node.contents, rule_leaf_iff hcontents]
              cases toJSON.json <;> simp
          | false =>
              simp only [walkField, Copyable, serializeValue, stringifyField, errorOf, hnode,
                rule_leaf_iff hcontents, and_false, false_iff, true_imp_iff]
              rintro ⟨json, hjson, hleaf⟩
              obtain ⟨_, -, hresult⟩ := Option.map_eq_some_iff.mp hjson
              obtain ⟨rfl, -⟩ := Prod.mk.inj hresult
              cases toJSON with
              | number value => cases value <;> cases hleaf
              | _ => cases hleaf
      | object entries =>
          have hcontents : (g.node o).contents =
              .values (.object entries.keys) entries.values := by rw [hnode]; rfl
          simp only [walkField, Copyable, serializeValue, stringifyField, errorOf, hnode,
            rule_values_iff hcontents, true_imp_iff, values_copy, keys_copy, stringifyAll_map]
          rw [hall]
          simp only [← rendersItem_none_iff [o, g.root]]
          rw [← exists_copy_iff]
          exact exists_congr fun json => and_congr_right fun hjson =>
            ⟨.inr, fun h => h.resolve_left fun h => ne_circular_of_text hjson h.2⟩

lemma validText_item {item : Item g.size} {seen seen' : g.Seen} {json : Option Json}
    (h : g.stringifyItem item seen = some (json, seen')) : ValidText json := by
  cases item with
  | raw value => exact validText_value h
  | error e =>
      obtain ⟨rfl, -⟩ := Prod.mk.inj (Option.some.inj h)
      rintro value ⟨⟩
      exact valid_serializedError e

lemma validText_field {field : Field g.size} {seen seen' : g.Seen} {json : Option Json}
    (h : g.stringifyField field seen = some (json, seen')) : ValidText json := by
  cases field with
  | raw value => exact validText_value h
  | error e =>
      obtain ⟨rfl, -⟩ := Prod.mk.inj (Option.some.inj h)
      rintro value ⟨⟩
      exact valid_serializedError e
  | array items =>
      have hfits : Shape.array.Fits items.length := trivial
      exact validText_of_all hfits (fun _ _ _ _ _ => validText_item) h
  | object entries =>
      exact validText_of_all (fits_entries entries) (fun _ _ _ _ _ => validText_item) h

/-! ### The members of the line -/

lemma find_members_cons {key key' : String} {keys : List String} (hkey : key ∉ keys)
    (json : Option Json) (jsons : List (Option Json)) :
    OrdMap.find key' (members (key :: keys) (json :: jsons)) =
      if key = key' then json else OrdMap.find key' (members keys jsons) := by
  rw [members_cons]
  cases json with
  | none =>
      split
      next h =>
          subst h
          exact OrdMap.find_eq_none_iff.mpr fun h => hkey (key_mem_of_members h)
      next => rfl
  | some value => rfl

/-- The texts are those that the members have. -/
lemma eq_map_find {keys : List String} (hnodup : keys.Nodup) {jsons : List (Option Json)}
    (hlength : jsons.length = keys.length) :
    jsons = keys.map fun key => OrdMap.find key (members keys jsons) := by
  induction keys generalizing jsons with
  | nil => exact List.length_eq_zero_iff.mp hlength
  | cons key keys ih =>
      obtain ⟨hkey, hnodup⟩ := List.nodup_cons.mp hnodup
      obtain ⟨json, jsons, rfl⟩ := List.exists_cons_of_length_eq_add_one hlength
      rw [List.map_cons, find_members_cons hkey, if_pos rfl]
      refine congrArg (json :: ·) ((ih hnodup (by simpa using hlength)).trans ?_)
      refine List.map_congr_left fun key' hkey' => ?_
      have hne : key ≠ key' := fun h => hkey (h ▸ hkey')
      rw [find_members_cons hkey, if_neg hne]

lemma find_members_of_notMem {keys : List String} {jsons : List (Option Json)} {key : String}
    (h : key ∉ keys) : OrdMap.find key (members keys jsons) = none :=
  OrdMap.find_eq_none_iff.mpr fun hkey => h (key_mem_of_members hkey)

variable (g) in
/-- A field of `logEntry` that the metadata may set. -/
def named (key text : String) : Field g.size :=
  ((g.entries.get key).map g.serializeValue).getD (.raw (.primitive (.string text)))

lemma find_serializeMetadata {key : String} (hkey : key ≠ "__proto__") :
    OrdMap.find key g.serializeMetadata.entries = (g.entries.get key).map g.serializeValue := by
  rw [serializeMetadata, entries_copy, OrdMap.find_map, OrdMap.find_filter,
    if_neg (Ne.symm hkey), OrdMap.get]

lemma filter_serializeMetadata :
    (g.serializeMetadata.entries.filter fun entry => entry.1 ∉ ["level", "message"]) =
      g.others.map fun entry => (entry.1, g.serializeValue entry.2) := by
  rw [serializeMetadata, entries_copy, List.filter_map, List.filter_filter, others]
  refine congrArg (List.map _) (List.filter_congr fun entry _ => ?_)
  simp only [Function.comp, List.mem_cons, List.not_mem_nil, or_false]
  by_cases hproto : entry.1 = "__proto__" <;> simp [hproto]

lemma entries_logEntry (level : LogLevel) (message : String) :
    (g.logEntry level message).entries =
      ("level", g.named "level" level.name) :: ("message", g.named "message" message) ::
        g.others.map fun entry => (entry.1, g.serializeValue entry.2) := by
  rw [logEntry, OrdMap.entries_foldl_set_of _ g.serializeMetadata.nodup, named, named,
    ← find_serializeMetadata (by decide), ← find_serializeMetadata (by decide),
    ← filter_serializeMetadata]
  rfl

lemma keys_logEntry (level : LogLevel) (message : String) :
    (g.logEntry level message).keys = "level" :: "message" :: g.others.map Prod.fst := by
  rw [OrdMap.keys, entries_logEntry, List.map_cons, List.map_cons, List.map_map]
  rfl

lemma values_logEntry (level : LogLevel) (message : String) :
    (g.logEntry level message).values =
      g.named "level" level.name :: g.named "message" message ::
        g.others.map fun entry => g.serializeValue entry.2 := by
  rw [OrdMap.values, entries_logEntry, List.map_cons, List.map_cons, List.map_map]
  rfl

/-! ### The level and the message -/

/-- A text that is a string is that of a value without values inside. -/
lemma stringifyField_string_iff {value : Value g.size} {text : String} {seen seen' : g.Seen} :
    g.stringifyField (g.serializeValue value) seen = some (some (.string text), seen') ↔
      (g.leafJson value = some (some (.string text)) ∧ g.Copyable value) ∧ seen = seen' := by
  cases value with
  | primitive p =>
      simp only [serializeValue, stringifyField, stringifyValue, leafJson, Copyable]
      cases p.json <;> simp
  | object o =>
      cases hnode : g.node o with
      | error e entries =>
          simp [serializeValue, stringifyField, leafJson, hnode, Node.contents,
            SerializedError.json]
      | array items =>
          simp [serializeValue, stringifyField, leafJson, hnode, Node.contents,
            Shape.json_ne_string]
      | custom isDate toJSON entries =>
          cases isDate with
          | true =>
              simp only [serializeValue, stringifyField, stringifyValue, leafJson, Copyable, hnode,
                Node.contents]
              cases toJSON.json <;> simp
          | false => simp [serializeValue, stringifyField, Copyable, hnode,
              Shape.json_ne_string]
      | object entries =>
          simp [serializeValue, stringifyField, leafJson, hnode, Node.contents,
            Shape.json_ne_string]

lemma stringifyField_named_iff {key text : String} {seen seen' : g.Seen} :
    g.stringifyField (g.named key text) seen = some (some (.string text), seen') ↔
      (∀ value, g.entries.get key = some value →
        g.leafJson value = some (some (.string text)) ∧ g.Copyable value) ∧ seen = seen' := by
  rw [named]
  cases g.entries.get key with
  | none => simp [stringifyField, stringifyValue, Primitive.json]
  | some value => simpa using stringifyField_string_iff

/-! ### The line -/

variable (g) in
/-- The text is right for a value of the metadata, unless it is an Error. -/
def RendersField (value : Value g.size) (json : Option Json) : Prop :=
  g.errorOf value = none → Rule g (RendersItem g) ([g.root], value) json

/-- The walk through the other entries gets through, and their copies say what they say, where
their texts are right. -/
lemma others_iff {seen seen' : g.Seen} :
    (g.others.foldlM (fun seen entry => g.walkField entry.2 seen) seen = some seen' ∧
        ∀ entry ∈ g.others, g.Copyable entry.2) ↔
      ∃ jsons, stringifyAll (fun entry => g.stringifyField (g.serializeValue entry.2)) g.others
          seen = some (jsons, seen') ∧
        List.Forall₂ (fun entry json => RendersField g entry.2 json) g.others jsons := by
  have hwalk : (∀ entry ∈ g.others, g.Copyable entry.2) → (g.others.foldlM
        (fun seen entry => g.walkField entry.2 seen) seen = some seen' ↔
      ∃ jsons, stringifyAll (fun entry => g.stringifyField (g.serializeValue entry.2)) g.others
          seen = some (jsons, seen') ∧
        List.Forall₂ (fun entry json => RendersField g entry.2 json) g.others jsons) :=
    fun hcopyable => stringifyAll_iff (P := fun _ => True) (fun _ _ _ _ _ _ _ => trivial)
      (fun entry hentry _ _ _ =>
        (and_iff_left (hcopyable entry hentry)).symm.trans walkField_iff) trivial
  refine ⟨fun h => (hwalk h.2).mp h.1, fun h => ?_⟩
  have hcopyable : ∀ entry ∈ g.others, g.Copyable entry.2 := by
    obtain ⟨jsons, hjsons, hall⟩ := h
    have htexts : List.Forall₂ (fun entry json => ∃ s s',
        g.stringifyField (g.serializeValue entry.2) s = some (json, s')) g.others jsons :=
      stringifyAll_forall₂ (fun _ _ s _ s' h => ⟨s, s', h⟩) hjsons
    intro entry hentry
    obtain ⟨json, ⟨s, s', htext⟩, hright⟩ := exists_of_forall₂ htexts hall hentry
    exact (walkField_iff.mpr ⟨json, htext, hright⟩).2
  exact ⟨(hwalk hcopyable).mpr h, hcopyable⟩

/-- The line has the members `find`, if there is one. -/
lemma write_iff {level : LogLevel} {message : String} {members : List (String × Json)} :
    (∃ text, JSONTransport.write level message g = some text ∧
        Json.parse text = some (.object members)) ↔
      ∃ jsons seen, stringifyAll g.stringifyField (g.logEntry level message).values [] =
          some (jsons, seen) ∧
        members = Logger.members (g.logEntry level message).keys jsons := by
  have hparse : ∀ {jsons seen}, stringifyAll g.stringifyField
        (g.logEntry level message).values [] = some (jsons, seen) →
      Json.parse (Json.object (Logger.members (g.logEntry level message).keys jsons)).stringify =
        some (.object (Logger.members (g.logEntry level message).keys jsons)) := by
    intro jsons seen h
    have htext : ValidText (some ((Shape.object (g.logEntry level message).keys).json jsons)) :=
      validText_of_all (fits_entries _) (fun _ _ _ _ _ => validText_field) (by rw [h]; rfl)
    exact Json.parse_stringify (htext _ rfl)
  constructor
  · rintro ⟨text, hwrite, htext⟩
    obtain ⟨⟨jsons, seen⟩, hjsons, rfl⟩ := Option.map_eq_some_iff.mp hwrite
    rw [hparse hjsons] at htext
    exact ⟨jsons, seen, hjsons, (Json.object.inj (Option.some.inj htext)).symm⟩
  · rintro ⟨jsons, seen, hjsons, rfl⟩
    exact ⟨_, by rw [JSONTransport.write, hjsons]; rfl, hparse hjsons⟩

lemma stringifyAll_logEntry_iff {level : LogLevel} {message : String}
    {jsons : List (Option Json)} {seen : g.Seen} :
    stringifyAll g.stringifyField (g.logEntry level message).values [] = some (jsons, seen) ↔
      ∃ json s, g.stringifyField (g.named "level" level.name) [] = some (json, s) ∧
        ∃ json' t, g.stringifyField (g.named "message" message) s = some (json', t) ∧
          ∃ jsons', stringifyAll (fun entry => g.stringifyField (g.serializeValue entry.2))
              g.others t = some (jsons', seen) ∧ jsons = json :: json' :: jsons' := by
  rw [values_logEntry]
  simp only [stringifyAll_cons, stringifyAll_map]
  constructor
  · rintro ⟨json, s, _, hlevel, ⟨json', t, jsons', hmessage, hothers, rfl⟩, rfl⟩
    exact ⟨json, s, hlevel, json', t, hmessage, jsons', hothers, rfl⟩
  · rintro ⟨json, s, hlevel, json', t, hmessage, jsons', hothers, rfl⟩
    exact ⟨json, s, _, hlevel, ⟨json', t, jsons', hmessage, hothers, rfl⟩, rfl⟩

/-- The entries of the metadata are those under the three keys, and the others. -/
lemma forall_entries_iff {Q : String → Value g.size → Prop} :
    (∀ entry ∈ g.entries.entries, Q entry.1 entry.2) ↔
      (∀ value, g.entries.get "level" = some value → Q "level" value) ∧
      (∀ value, g.entries.get "message" = some value → Q "message" value) ∧
      (∀ value, g.entries.get "__proto__" = some value → Q "__proto__" value) ∧
      ∀ entry ∈ g.others, Q entry.1 entry.2 := by
  have hget : ∀ {key value}, g.entries.get key = some value → (key, value) ∈ g.entries.entries :=
    (OrdMap.mem_iff_find g.entries.nodup).mpr
  constructor
  · intro h
    exact ⟨fun _ hvalue => h _ (hget hvalue), fun _ hvalue => h _ (hget hvalue),
      fun _ hvalue => h _ (hget hvalue), fun entry hentry => h _ (List.mem_filter.mp hentry).1⟩
  · rintro ⟨hlevel, hmessage, hproto, hothers⟩ ⟨key, value⟩ hentry
    have hvalue : g.entries.get key = some value :=
      (OrdMap.mem_iff_find g.entries.nodup).mp hentry
    by_cases hkey : key ∈ ["level", "message", "__proto__"]
    · simp only [List.mem_cons, List.not_mem_nil, or_false] at hkey
      rcases hkey with rfl | rfl | rfl
      · exact hlevel value hvalue
      · exact hmessage value hvalue
      · exact hproto value hvalue
    · exact hothers _ (List.mem_filter.mpr ⟨hentry, by simpa using hkey⟩)

lemma rendersField_none_iff {value : Value g.size} :
    RendersField g value none ↔ g.Dispensable value := by
  rw [RendersField, rule_none_iff, Dispensable, imp_iff_not_or]

/-- The texts of the other entries are right where the members are. -/
lemma forall₂_others_iff {members : List (String × Json)} :
    List.Forall₂ (fun entry json => RendersField g entry.2 json) g.others
        ((g.others.map Prod.fst).map fun key => OrdMap.find key members) ↔
      ∀ entry ∈ g.others, RendersField g entry.2 (OrdMap.find entry.1 members) := by
  rw [List.map_map, List.forall₂_map_right_iff, List.forall₂_same]
  rfl

lemma nodup_keys (level : LogLevel) (message : String) :
    ("level" :: "message" :: g.others.map Prod.fst).Nodup := by
  rw [← keys_logEntry level message]
  exact (g.logEntry level message).nodup

lemma find_level (level : LogLevel) (message : String) (json : Option Json)
    (jsons : List (Option Json)) :
    OrdMap.find "level" (members (g.logEntry level message).keys (json :: jsons)) = json := by
  rw [keys_logEntry, find_members_cons (List.nodup_cons.mp (nodup_keys level message)).1,
    if_pos rfl]

lemma find_message (level : LogLevel) (message : String) (json json' : Option Json)
    (jsons : List (Option Json)) :
    OrdMap.find "message" (members (g.logEntry level message).keys (json :: json' :: jsons)) =
      json' := by
  obtain ⟨hlevel, hnodup⟩ := List.nodup_cons.mp (nodup_keys (g := g) level message)
  rw [keys_logEntry, find_members_cons hlevel, if_neg (by decide),
    find_members_cons (List.nodup_cons.mp hnodup).1, if_pos rfl]

/-- The members of a line are right where its texts are. -/
lemma forall_rendersField_iff {level : LogLevel} {message : String} {json json' : Option Json}
    {jsons : List (Option Json)} (hlength : jsons.length = g.others.length) :
    (∀ entry ∈ g.entries.entries, RendersField g entry.2 (OrdMap.find entry.1
        (members (g.logEntry level message).keys (json :: json' :: jsons)))) ↔
      (∀ value, g.entries.get "level" = some value → RendersField g value json) ∧
      (∀ value, g.entries.get "message" = some value → RendersField g value json') ∧
      (∀ value, g.entries.get "__proto__" = some value → g.Dispensable value) ∧
      List.Forall₂ (fun entry json => RendersField g entry.2 json) g.others jsons := by
  have hproto : OrdMap.find "__proto__" (members ("level" :: "message" :: g.others.map Prod.fst)
      (json :: json' :: jsons)) = none := by
    refine find_members_of_notMem ?_
    simp [others]
  obtain ⟨hlevel, hrest⟩ := List.cons.inj (eq_map_find (nodup_keys (g := g) level message)
    (show (json :: json' :: jsons).length = _ by simp [hlength]))
  obtain ⟨hmessage, hothers⟩ := List.cons.inj hrest
  rw [keys_logEntry]
  generalize members ("level" :: "message" :: g.others.map Prod.fst) (json :: json' :: jsons) =
    members at hproto hlevel hmessage hothers ⊢
  subst hlevel hmessage hothers
  rw [forall_entries_iff (Q := fun key value => RendersField g value (OrdMap.find key members)),
    forall₂_others_iff, hproto]
  simp only [rendersField_none_iff]

/-- A run of `write`, with the conditions on each of its parts. -/
lemma faithful_iff (level : LogLevel) (message : String) (g : Metadata) :
    Faithful g level message (JSONTransport.write level message g) ↔
      ∃ s t seen jsons,
        g.stringifyField (g.named "level" level.name) [] =
          some (some (.string level.name), s) ∧
        g.stringifyField (g.named "message" message) s = some (some (.string message), t) ∧
        stringifyAll (fun entry => g.stringifyField (g.serializeValue entry.2)) g.others t =
          some (jsons, seen) ∧
        (∀ value, g.entries.get "level" = some value →
          RendersField g value (some (.string level.name))) ∧
        (∀ value, g.entries.get "message" = some value →
          RendersField g value (some (.string message))) ∧
        (∀ value, g.entries.get "__proto__" = some value → g.Dispensable value) ∧
        List.Forall₂ (fun entry json => RendersField g entry.2 json) g.others jsons := by
  constructor
  · rintro ⟨text, members, hwrite, hparse, hlevel, hmessage, hfields⟩
    obtain ⟨jsons, seen, hrun, rfl⟩ := write_iff.mp ⟨text, hwrite, hparse⟩
    obtain ⟨json, s, hjson, json', t, hjson', jsons, hothers, rfl⟩ :=
      stringifyAll_logEntry_iff.mp hrun
    rw [find_level] at hlevel
    rw [find_message] at hmessage
    subst hlevel hmessage
    have hall : List.Forall₂ (fun _ _ => True) g.others jsons :=
      stringifyAll_forall₂ (fun _ _ _ _ _ _ => trivial) hothers
    exact ⟨s, t, seen, jsons, hjson, hjson', hothers,
      (forall_rendersField_iff hall.length_eq.symm).mp hfields⟩
  · rintro ⟨s, t, seen, jsons, hjson, hjson', hothers, hfields⟩
    have hall : List.Forall₂ (fun _ _ => True) g.others jsons :=
      stringifyAll_forall₂ (fun _ _ _ _ _ _ => trivial) hothers
    have hrun := stringifyAll_logEntry_iff.mpr ⟨_, s, hjson, _, t, hjson', jsons, hothers, rfl⟩
    obtain ⟨text, hwrite, hparse⟩ := write_iff.mpr ⟨_, seen, hrun, rfl⟩
    exact ⟨text, _, hwrite, hparse, find_level .., find_message ..,
      (forall_rendersField_iff hall.length_eq.symm).mpr hfields⟩

end Metadata

lemma Faithful.tame {level : LogLevel} {message : String} {g : Metadata}
    (h : Faithful g level message (JSONTransport.write level message g)) :
    Tame level message g := by
  obtain ⟨s, t, seen, jsons, hjson, hjson', hothers, -, -, hproto, hall⟩ :=
    (faithful_iff level message g).mp h
  obtain ⟨hlevel, rfl⟩ := stringifyField_named_iff.mp hjson
  obtain ⟨hmessage, rfl⟩ := stringifyField_named_iff.mp hjson'
  obtain ⟨hwalk, hcopyable⟩ := others_iff.mpr ⟨jsons, hothers, hall⟩
  exact
    { level := fun value hvalue => (hlevel value hvalue).1
      message := fun value hvalue => (hmessage value hvalue).1
      proto := hproto
      copyable := (forall_entries_iff
        (Q := fun key value => key ≠ "__proto__" → g.Copyable value)).mpr
          ⟨fun value hvalue _ => (hlevel value hvalue).2,
            fun value hvalue _ => (hmessage value hvalue).2, fun _ _ h => absurd rfl h,
            fun entry hentry _ => hcopyable entry hentry⟩
      walk := Option.isSome_iff_exists.mpr ⟨seen, hwalk⟩ }

lemma Tame.faithful {level : LogLevel} {message : String} {g : Metadata}
    (h : Tame level message g) :
    Faithful g level message (JSONTransport.write level message g) := by
  have hrenders : ∀ {value : Value g.size} {text : String},
      g.leafJson value = some (some (.string text)) →
        RendersField g value (some (.string text)) := fun h _ => rule_of_leafJson h
  obtain ⟨hlevel, hmessage, -, hothers⟩ := (forall_entries_iff
    (Q := fun key value => key ≠ "__proto__" → g.Copyable value)).mp h.copyable
  obtain ⟨seen, hwalk⟩ := Option.isSome_iff_exists.mp h.walk
  have hkey : ∀ entry ∈ g.others, entry.1 ≠ "__proto__" := by simp +contextual [others]
  obtain ⟨jsons, hjsons, hall⟩ := others_iff.mp
    ⟨hwalk, fun entry hentry => hothers entry hentry (hkey entry hentry)⟩
  exact (faithful_iff level message g).mpr ⟨[], [], seen, jsons,
    stringifyField_named_iff.mpr ⟨fun value hvalue =>
      ⟨h.level value hvalue, hlevel value hvalue (by decide)⟩, rfl⟩,
    stringifyField_named_iff.mpr ⟨fun value hvalue =>
      ⟨h.message value hvalue, hmessage value hvalue (by decide)⟩, rfl⟩,
    hjsons, fun value hvalue => hrenders (h.level value hvalue),
    fun value hvalue => hrenders (h.message value hvalue), h.proto, hall⟩

/-- **A line is faithful for tame metadata only.** -/
theorem faithful_iff_tame (level : LogLevel) (message : String) (g : Metadata) :
    Faithful g level message (JSONTransport.write level message g) ↔ Tame level message g :=
  ⟨Faithful.tame, Tame.faithful⟩

/-- `{ before: { owner }, after: { owner } }`, with one object `owner`. -/
def sharedOwner : Metadata where
  size := 4
  node
    | 0 => .object ((OrdMap.set ∅ "before" (.object 1)).set "after" (.object 2))
    | 1 => .object (OrdMap.set ∅ "owner" (.object 3))
    | 2 => .object (OrdMap.set ∅ "owner" (.object 3))
    | 3 => .object (OrdMap.set ∅ "id" (.primitive (.string "u1")))
  root := 0
  entries := (OrdMap.set ∅ "before" (.object 1)).set "after" (.object 2)
  node_root := rfl

/-- The second `owner` is printed as `[Circular]`, though nothing is inside itself. -/
theorem not_faithful_sharedOwner :
    ¬ Faithful sharedOwner .info "assigned" (JSONTransport.write .info "assigned" sharedOwner) :=
  fun h => absurd h.tame.walk (by decide)

end Blaize.Logger
