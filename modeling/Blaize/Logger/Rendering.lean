import Mathlib.Data.Fintype.Card
import Mathlib.Data.List.Forall2
import Blaize.Logger.JsonTransport

/-!
The text of one value: what it is to be, and what the replacer makes of it.

* `Rule`, `Renders`: what `JSON.stringify` alone makes of a value, where an object inside itself
  may be `[Circular]`;
* `walk`: the objects in the order of the document, each entered once;
* `stringifyAll_iff`: what holds of each value holds of all of them;
* `room_stringifyValue`: the objects that are still to be seen bound the depth;
* `renders_iff_of_stringifyAlone`: **a value without cycles has the text of `JSON.stringify`
  alone**;
* `walk_iff`: **a walk gets through a value where its text is right**;
* `validText_value`: the text is JSON.
-/

namespace Blaize.Logger

open Js Metadata

/-! ### What is to be printed -/

/-- A value, and the objects that it is inside of. -/
abbrev Place (g : Metadata) := List (Fin g.size) × Value g.size

section

variable (g : Metadata)

/-- What `JSON.stringify` makes of a value, when `R` says what it makes of those inside: `none`
when it is left out.  An object inside itself may be marked instead. -/
inductive Rule (R : Place g → Option Json → Prop) : Place g → Option Json → Prop
  | primitive {path : List (Fin g.size)} {p : Primitive} {json : Option Json} :
      p.json = some json → Rule R (path, .primitive p) json
  | leaf {path : List (Fin g.size)} {o : Fin g.size} {p : Primitive} {json : Option Json} :
      (g.node o).contents = .leaf p → p.json = some json → Rule R (path, .object o) json
  | values {path : List (Fin g.size)} {o : Fin g.size} {shape : Shape}
      {values : List (Value g.size)} {jsons : List (Option Json)} :
      (g.node o).contents = .values shape values →
      List.Forall₂ R (values.map fun value => (o :: path, value)) jsons →
      Rule R (path, .object o) (some (shape.json jsons))
  | circular {path : List (Fin g.size)} {o : Fin g.size} {shape : Shape}
      {values : List (Value g.size)} :
      (g.node o).contents = .values shape values → o ∈ path →
      Rule R (path, .object o) (some circular)

/-- What `JSON.stringify` alone makes of a value, but for objects inside themselves. -/
inductive Renders : Place g → Option Json → Prop
  | rule {place : Place g} {json : Option Json} : Rule g Renders place json → Renders place json

end

/-! ### The walk -/

namespace Metadata

variable (g : Metadata)

/-- The text of a value without values inside. -/
def leafJson : Value g.size → Option (Option Json)
  | .primitive p => p.json
  | .object o =>
      match (g.node o).contents with
      | .leaf p => p.json
      | .values _ _ => none

/-- The walk through a value: `none` when it meets a BigInt, or meets an object again at a place
that is not inside of it. -/
def walk : ℕ → Place g → g.Seen → Option g.Seen
  | _, (_, .primitive p), seen => p.json.map fun _ => seen
  | 0, (_, .object _), seen => some seen
  | fuel + 1, (path, .object o), seen =>
      match (g.node o).contents with
      | .leaf p => p.json.map fun _ => seen
      | .values _ values =>
          if o ∈ seen then if o ∈ path then some seen else none
          else values.foldlM (fun seen value => walk fuel (o :: path, value) seen) (o :: seen)

end Metadata

/-! ### All values, one after the other -/

section

variable {α σ : Type} {f : α → σ → Option (Option Json × σ)} {values : List α}
  {jsons : List (Option Json)} {s s' : σ}

lemma stringifyAll_cons {value : α} :
    stringifyAll f (value :: values) s = some (jsons, s') ↔
      ∃ json t jsons', f value s = some (json, t) ∧
        stringifyAll f values t = some (jsons', s') ∧ jsons = json :: jsons' := by
  rw [stringifyAll]
  cases hf : f value s with
  | none => simp
  | some result =>
      obtain ⟨json, t⟩ := result
      cases hrest : stringifyAll f values t with
      | none => simp [hrest]
      | some rest =>
          obtain ⟨jsons', t'⟩ := rest
          simp only [Option.bind_eq_bind, Option.bind_some, hrest, Option.some.injEq,
            Prod.mk.injEq]
          constructor
          · rintro ⟨rfl, rfl⟩
            exact ⟨json, t, jsons', ⟨rfl, rfl⟩, hrest, rfl⟩
          · rintro ⟨_, _, _, ⟨rfl, rfl⟩, hrest', rfl⟩
            rw [hrest] at hrest'
            obtain ⟨rfl, rfl⟩ := Prod.mk.inj (Option.some.inj hrest')
            exact ⟨rfl, rfl⟩

/-- What is kept by each value is kept by all of them. -/
lemma stringifyAll_keeps {P : σ → Prop}
    (hf : ∀ value ∈ values, ∀ s json s', P s → f value s = some (json, s') → P s')
    (hs : P s) (h : stringifyAll f values s = some (jsons, s')) : P s' := by
  induction values generalizing s jsons with
  | nil =>
      obtain ⟨-, rfl⟩ := Prod.mk.inj (Option.some.inj h)
      exact hs
  | cons value values ih =>
      obtain ⟨json, t, jsons', hvalue, hvalues, -⟩ := stringifyAll_cons.mp h
      rw [List.forall_mem_cons] at hf
      exact ih hf.2 (hf.1 _ _ _ hs hvalue) hvalues

lemma stringifyAll_forall₂ {Q : α → Option Json → Prop}
    (hf : ∀ value ∈ values, ∀ s json s', f value s = some (json, s') → Q value json)
    (h : stringifyAll f values s = some (jsons, s')) : List.Forall₂ Q values jsons := by
  induction values generalizing s jsons with
  | nil =>
      obtain ⟨rfl, -⟩ := Prod.mk.inj (Option.some.inj h)
      exact .nil
  | cons value values ih =>
      obtain ⟨json, t, jsons', hvalue, hvalues, rfl⟩ := stringifyAll_cons.mp h
      rw [List.forall_mem_cons] at hf
      exact .cons (hf.1 _ _ _ hvalue) (ih hf.2 hvalues)

/-- **All values**: a walk gets through all of them where each has its text. -/
lemma stringifyAll_iff {P : σ → Prop} {R : α → Option Json → Prop} {visit : α → σ → Option σ}
    (hkeeps : ∀ value ∈ values, ∀ s json s', P s → f value s = some (json, s') → P s')
    (hvisit : ∀ value ∈ values, ∀ s s', P s →
      (visit value s = some s' ↔ ∃ json, f value s = some (json, s') ∧ R value json))
    (hs : P s) :
    values.foldlM (fun s value => visit value s) s = some s' ↔
      ∃ jsons, stringifyAll f values s = some (jsons, s') ∧ List.Forall₂ R values jsons := by
  induction values generalizing s with
  | nil => simp [stringifyAll]
  | cons value values ih =>
      rw [List.forall_mem_cons] at hkeeps hvisit
      rw [List.foldlM_cons, Option.bind_eq_bind, Option.bind_eq_some_iff]
      constructor
      · rintro ⟨t, hvalue, hvalues⟩
        obtain ⟨json, hjson, hR⟩ := (hvisit.1 s t hs).mp hvalue
        obtain ⟨jsons, hjsons, hall⟩ :=
          (ih hkeeps.2 hvisit.2 (hkeeps.1 _ _ _ hs hjson)).mp hvalues
        exact ⟨json :: jsons, stringifyAll_cons.mpr ⟨_, _, _, hjson, hjsons, rfl⟩, .cons hR hall⟩
      · rintro ⟨jsons, hjsons, hall⟩
        obtain ⟨json, t, jsons', hjson, hjsons', rfl⟩ := stringifyAll_cons.mp hjsons
        obtain ⟨hR, hall'⟩ := List.forall₂_cons.mp hall
        exact ⟨t, (hvisit.1 s t hs).mpr ⟨json, hjson, hR⟩,
          (ih hkeeps.2 hvisit.2 (hkeeps.1 _ _ _ hs hjson)).mpr ⟨jsons', hjsons', hall'⟩⟩

end

/-! ### The texts of objects and arrays -/

lemma members_cons (key : String) (keys : List String) (json : Option Json)
    (jsons : List (Option Json)) :
    members (key :: keys) (json :: jsons) = json.toList.map (key, ·) ++ members keys jsons := by
  cases json <;> rfl

lemma key_mem_of_members {keys : List String} {jsons : List (Option Json)} {key : String}
    (hkey : key ∈ (members keys jsons).map Prod.fst) : key ∈ keys := by
  obtain ⟨member, hmember, rfl⟩ := List.mem_map.mp hkey
  obtain ⟨⟨key, json⟩, hzip, hjson⟩ := List.mem_filterMap.mp hmember
  obtain ⟨value, -, rfl⟩ := Option.map_eq_some_iff.mp hjson
  exact (List.of_mem_zip hzip).1

lemma members_injective {keys : List String} (hnodup : keys.Nodup)
    {jsons jsons' : List (Option Json)} (hlength : jsons.length = keys.length)
    (hlength' : jsons'.length = keys.length) (h : members keys jsons = members keys jsons') :
    jsons = jsons' := by
  induction keys generalizing jsons jsons' with
  | nil => rw [List.length_eq_zero_iff.mp hlength, List.length_eq_zero_iff.mp hlength']
  | cons key keys ih =>
      obtain ⟨hkey, hnodup⟩ := List.nodup_cons.mp hnodup
      obtain ⟨json, jsons, rfl⟩ := List.exists_cons_of_length_eq_add_one hlength
      obtain ⟨json', jsons', rfl⟩ := List.exists_cons_of_length_eq_add_one hlength'
      rw [members_cons, members_cons] at h
      have hlost : ∀ {value : Json} {jsons₁ jsons₂ : List (Option Json)},
          members keys jsons₁ ≠ (key, value) :: members keys jsons₂ := fun h =>
        hkey (key_mem_of_members (List.mem_map.mpr ⟨_, h ▸ List.mem_cons_self, rfl⟩))
      cases json with
      | none =>
          cases json' with
          | none => rw [ih hnodup (by simpa using hlength) (by simpa using hlength') h]
          | some value' => exact absurd h hlost
      | some value =>
          cases json' with
          | none => exact absurd h.symm hlost
          | some value' =>
              obtain ⟨hvalue, htail⟩ := List.cons.inj h
              rw [ih hnodup (by simpa using hlength) (by simpa using hlength') htail,
                (Prod.mk.inj hvalue).2]

/-- The keys of an object are as many as its values, and none is there twice. -/
def Shape.Fits : Shape → ℕ → Prop
  | .object keys, n => keys.Nodup ∧ keys.length = n
  | .array, _ => True

lemma Shape.json_injective {shape : Shape} {jsons jsons' : List (Option Json)}
    (hfits : shape.Fits jsons.length)
    (hsame : List.Forall₂ (fun json json' => json.getD .null = json'.getD .null → json = json')
      jsons jsons')
    (h : shape.json jsons = shape.json jsons') : jsons = jsons' := by
  cases shape with
  | object keys =>
      exact members_injective hfits.1 hfits.2.symm (hsame.length_eq ▸ hfits.2.symm)
        (Json.object.inj h)
  | array =>
      have hitems : jsons.map (·.getD .null) = jsons'.map (·.getD .null) := Json.array.inj h
      induction hsame with
      | nil => rfl
      | cons hhead _ ih =>
          obtain ⟨hitem, hitems⟩ := List.cons.inj hitems
          rw [hhead hitem, ih trivial (congrArg Json.array hitems) hitems]

lemma Shape.json_ne_string (shape : Shape) (jsons : List (Option Json)) (text : String) :
    shape.json jsons ≠ .string text := by
  cases shape <;> exact Json.noConfusion

lemma fits_entries {α : Type} (entries : OrdMap String α) :
    (Shape.object entries.keys).Fits entries.values.length := by
  refine ⟨entries.nodup, ?_⟩
  rw [OrdMap.keys, OrdMap.values, List.length_map, List.length_map]

lemma fits_contents {n : ℕ} {node : Node n} {shape : Shape} {values : List (Value n)}
    (h : node.contents = .values shape values) : shape.Fits values.length := by
  cases node with
  | object entries =>
      cases h
      exact fits_entries entries
  | array items =>
      cases h
      trivial
  | error e entries =>
      cases h
      exact fits_entries entries
  | custom isDate toJSON entries => cases h

/-! ### The walk through one value -/

namespace Metadata

variable {g : Metadata}

/-- The objects that are still to be seen. -/
def room (seen : g.Seen) : ℕ := (Finset.univ.filter (· ∉ seen)).card

lemma room_le (seen : g.Seen) : room seen ≤ g.size :=
  (Finset.card_filter_le _ _).trans (Finset.card_fin g.size).le

lemma room_cons {seen : g.Seen} {o : Fin g.size} (ho : o ∉ seen) :
    room (o :: seen) < room seen := by
  refine Finset.card_lt_card (Finset.ssubset_iff_of_subset ?_ |>.mpr ⟨o, by simp [ho], by simp⟩)
  exact Finset.monotone_filter_right _ fun o' _ ho' h => ho' (List.mem_cons_of_mem _ h)

/-- A text is left out where the value is. -/
lemma eq_none_iff_of_stringifyValue {fuel : ℕ} {value : Value g.size} {seen seen' : g.Seen}
    {json : Option Json} (h : g.stringifyValue fuel value seen = some (json, seen')) :
    json = none ↔ g.leafJson value = some none := by
  cases value with
  | primitive p =>
      rw [stringifyValue] at h
      obtain ⟨json, hjson, hresult⟩ := Option.map_eq_some_iff.mp h
      obtain ⟨rfl, -⟩ := Prod.mk.inj hresult
      rw [leafJson, hjson, Option.some.injEq]
  | object o =>
      cases fuel with
      | zero => cases h
      | succ fuel =>
          rw [stringifyValue] at h
          rw [leafJson]
          split at h
          next p hcontents =>
              obtain ⟨json, hjson, hresult⟩ := Option.map_eq_some_iff.mp h
              obtain ⟨rfl, -⟩ := Prod.mk.inj hresult
              simp only [hcontents, hjson, Option.some.injEq]
          next shape values hcontents =>
              have hsome : json ≠ none := by
                split at h
                · obtain ⟨rfl, -⟩ := Prod.mk.inj (Option.some.inj h)
                  exact Option.some_ne_none _
                · obtain ⟨jsons, -, hresult⟩ := Option.map_eq_some_iff.mp h
                  obtain ⟨rfl, -⟩ := Prod.mk.inj hresult
                  exact Option.some_ne_none _
              simp only [hcontents, hsome, reduceCtorEq]

lemma eq_none_iff_of_rule {R : Place g → Option Json → Prop} {place : Place g}
    {json : Option Json} (h : Rule g R place json) :
    json = none ↔ g.leafJson place.2 = some none := by
  cases h with
  | primitive hjson => rw [leafJson, hjson, Option.some.injEq]
  | leaf hcontents hjson => simp only [leafJson, hcontents, hjson, Option.some.injEq]
  | values hcontents => simp [leafJson, hcontents]
  | circular hcontents => simp [leafJson, hcontents]

lemma room_stringifyValue {fuel : ℕ} {value : Value g.size} {seen seen' : g.Seen}
    {json : Option Json} (h : g.stringifyValue fuel value seen = some (json, seen')) :
    room seen' ≤ room seen := by
  induction fuel generalizing value seen seen' json with
  | zero =>
      cases value with
      | primitive p =>
          obtain ⟨_, -, hresult⟩ := Option.map_eq_some_iff.mp h
          rw [(Prod.mk.inj hresult).2]
      | object o => cases h
  | succ fuel ih =>
      cases value with
      | primitive p =>
          obtain ⟨_, -, hresult⟩ := Option.map_eq_some_iff.mp h
          rw [(Prod.mk.inj hresult).2]
      | object o =>
          rw [stringifyValue] at h
          split at h
          next =>
              obtain ⟨_, -, hresult⟩ := Option.map_eq_some_iff.mp h
              rw [(Prod.mk.inj hresult).2]
          next shape values hcontents =>
              split at h
              next => rw [(Prod.mk.inj (Option.some.inj h)).2]
              next ho =>
                  obtain ⟨⟨jsons, t⟩, hvalues, hresult⟩ := Option.map_eq_some_iff.mp h
                  rw [← (Prod.mk.inj hresult).2]
                  exact stringifyAll_keeps (P := fun t => room t ≤ room seen)
                    (fun value _ s json s' hs hvalue => (ih hvalue).trans hs)
                    (room_cons ho).le hvalues

section

variable {R : Place g → Option Json → Prop} {path : List (Fin g.size)} {o : Fin g.size}
  {json : Option Json}

lemma rule_primitive_iff {p : Primitive} :
    Rule g R (path, .primitive p) json ↔ p.json = some json := by
  constructor
  · rintro ⟨hjson⟩
    exact hjson
  · exact .primitive

lemma rule_leaf_iff {p : Primitive} (hcontents : (g.node o).contents = .leaf p) :
    Rule g R (path, .object o) json ↔ p.json = some json := by
  constructor
  · intro h
    cases h with
    | leaf hcontents' hjson =>
        cases hcontents.symm.trans hcontents'
        exact hjson
    | values hcontents' => cases hcontents.symm.trans hcontents'
    | circular hcontents' => cases hcontents.symm.trans hcontents'
  · exact .leaf hcontents

lemma rule_values_iff {shape : Shape} {values : List (Value g.size)}
    (hcontents : (g.node o).contents = .values shape values) :
    Rule g R (path, .object o) json ↔
      o ∈ path ∧ json = some circular ∨
        ∃ jsons, List.Forall₂ (fun value json => R (o :: path, value) json) values jsons ∧
          json = some (shape.json jsons) := by
  constructor
  · intro h
    cases h with
    | leaf hcontents' => cases hcontents.symm.trans hcontents'
    | values hcontents' hall =>
        cases hcontents.symm.trans hcontents'
        exact .inr ⟨_, List.forall₂_map_left_iff.mp hall, rfl⟩
    | circular _ ho => exact .inl ⟨ho, rfl⟩
  · rintro (⟨ho, rfl⟩ | ⟨jsons, hall, rfl⟩)
    · exact .circular hcontents ho
    · exact .values hcontents (List.forall₂_map_left_iff.mpr hall)

end

lemma renders_iff {place : Place g} {json : Option Json} :
    Renders g place json ↔ Rule g (Renders g) place json :=
  ⟨fun ⟨h⟩ => h, .rule⟩

lemma forall₂_of_both {α β γ : Type} {Q : α → β → Prop} {R : α → γ → Prop} {S : β → γ → Prop}
    {as : List α} {bs : List β} {cs : List γ} (hQ : List.Forall₂ Q as bs)
    (hR : List.Forall₂ R as cs) (hS : ∀ a b c, Q a b → R a c → S b c) : List.Forall₂ S bs cs := by
  induction hQ generalizing cs with
  | nil =>
      cases hR
      exact .nil
  | cons hhead _ ih =>
      cases hR with
      | cons hhead' htail => exact .cons (hS _ _ _ hhead hhead') (ih htail)

lemma exists_of_forall₂ {α β : Type} {Q R : α → β → Prop} {as : List α} {bs : List β}
    (hQ : List.Forall₂ Q as bs) (hR : List.Forall₂ R as bs) {a : α} (ha : a ∈ as) :
    ∃ b, Q a b ∧ R a b := by
  induction hQ with
  | nil => cases ha
  | cons hhead _ ih =>
      obtain ⟨hhead', htail⟩ := List.forall₂_cons.mp hR
      rcases List.mem_cons.mp ha with rfl | ha
      · exact ⟨_, hhead, hhead'⟩
      · exact ih htail ha

lemma eq_of_getD_eq {json json' : Option Json} (hnone : json = none ↔ json' = none)
    (h : json.getD .null = json'.getD .null) : json = json' := by
  cases json with
  | none => exact (hnone.mp rfl).symm
  | some value =>
      cases json' with
      | none => exact absurd (hnone.mpr rfl) (Option.some_ne_none _)
      | some value' => exact congrArg some h

variable (g) in
/-- `JSON.stringify` without a replacer: it throws for a BigInt, and for an object that it is
inside of. -/
def stringifyAlone : ℕ → Place g → Option (Option Json)
  | _, (_, .primitive p) => p.json
  | 0, (_, .object _) => none
  | fuel + 1, (path, .object o) =>
      match (g.node o).contents with
      | .leaf p => p.json
      | .values shape values =>
          if o ∈ path then none
          else (values.mapM fun value => stringifyAlone fuel (o :: path, value)).map fun jsons =>
            some (shape.json jsons)

lemma forall₂_of_mapM {α β : Type} {f : α → Option β} {as : List α} {bs : List β}
    (h : as.mapM f = some bs) : List.Forall₂ (fun a b => f a = some b) as bs := by
  induction as generalizing bs with
  | nil =>
      cases h
      exact .nil
  | cons a as ih =>
      rw [List.mapM_cons] at h
      obtain ⟨b, hb, h⟩ := Option.bind_eq_some_iff.mp h
      obtain ⟨bs, hbs, h⟩ := Option.bind_eq_some_iff.mp h
      cases h
      exact .cons hb (ih hbs)

/-- Where `JSON.stringify` alone has a text, it is the one to be printed. -/
theorem renders_iff_of_stringifyAlone {fuel : ℕ} {place : Place g} {json json' : Option Json}
    (h : g.stringifyAlone fuel place = some json) : Renders g place json' ↔ json' = json := by
  induction fuel generalizing place json json' with
  | zero =>
      obtain ⟨path, value⟩ := place
      cases value with
      | primitive p =>
          rw [stringifyAlone] at h
          rw [renders_iff, rule_primitive_iff, h, Option.some.injEq]
          exact eq_comm
      | object o => cases h
  | succ fuel ih =>
      obtain ⟨path, value⟩ := place
      cases value with
      | primitive p =>
          rw [stringifyAlone] at h
          rw [renders_iff, rule_primitive_iff, h, Option.some.injEq]
          exact eq_comm
      | object o =>
          rw [stringifyAlone] at h
          rw [renders_iff]
          split at h
          next p hcontents =>
              rw [rule_leaf_iff hcontents, h, Option.some.injEq]
              exact eq_comm
          next shape values hcontents =>
              split at h
              next => cases h
              next ho =>
                  obtain ⟨jsons, hjsons, rfl⟩ := Option.map_eq_some_iff.mp h
                  have hall := forall₂_of_mapM hjsons
                  rw [rule_values_iff hcontents]
                  constructor
                  · rintro (⟨hpath, -⟩ | ⟨jsons', hall', rfl⟩)
                    · exact absurd hpath ho
                    · have hsame := forall₂_of_both hall' hall
                        (S := fun json' json => json' = json) fun _ _ _ h' h => (ih h).mp h'
                      rw [List.forall₂_eq_eq_eq] at hsame
                      rw [hsame]
                  · rintro rfl
                    exact .inr ⟨jsons, hall.imp fun _ _ h => (ih h).mpr rfl, rfl⟩

/-- No object or array has the mark for its text. -/
lemma ne_circular_of_text {σ : Type} {texts : Option (List (Option Json) × σ)} {shape : Shape}
    {json : Option Json} {s : σ}
    (h : (texts.map fun (jsons, seen) => (some (shape.json jsons), seen)) = some (json, s)) :
    json ≠ some circular := by
  rintro rfl
  obtain ⟨_, -, hresult⟩ := Option.map_eq_some_iff.mp h
  exact shape.json_ne_string _ _ (Option.some.inj (Prod.mk.inj hresult).1)

/-- The text of an object or an array is right where those of its values are. -/
lemma exists_text_iff {α σ : Type} {f : α → σ → Option (Option Json × σ)}
    {R : α → Option Json → Prop} {values : List α} {shape : Shape} {s s' : σ}
    (hfits : shape.Fits values.length)
    (hsame : ∀ value json json' s s', f value s = some (json, s') → R value json' →
      json.getD .null = json'.getD .null → json = json') :
    (∃ json, (stringifyAll f values s).map (fun (jsons, seen) => (some (shape.json jsons), seen)) =
        some (json, s') ∧
      ∃ jsons, List.Forall₂ R values jsons ∧ json = some (shape.json jsons)) ↔
      ∃ jsons, stringifyAll f values s = some (jsons, s') ∧ List.Forall₂ R values jsons := by
  constructor
  · rintro ⟨json, hjson, jsons', hall, rfl⟩
    obtain ⟨⟨jsons, t⟩, hjsons, hresult⟩ := Option.map_eq_some_iff.mp hjson
    obtain ⟨htext, rfl⟩ := Prod.mk.inj hresult
    have htexts : List.Forall₂ (fun value json => ∃ s s', f value s = some (json, s'))
        values jsons := stringifyAll_forall₂ (fun _ _ s _ s' h => ⟨s, s', h⟩) hjsons
    have hboth := forall₂_of_both htexts hall fun value json json' ⟨s, s', h⟩ h' =>
      hsame value json json' s s' h h'
    have heq := Shape.json_injective (htexts.length_eq ▸ hfits) hboth (Option.some.inj htext)
    exact ⟨jsons, hjsons, heq ▸ hall⟩
  · rintro ⟨jsons, hjsons, hall⟩
    exact ⟨_, by rw [hjsons]; rfl, jsons, hall, rfl⟩

/-- **One value**: a walk gets through it where its text is right. -/
lemma walk_iff {fuel : ℕ} {path : List (Fin g.size)} {value : Value g.size}
    {seen seen' : g.Seen} (hfuel : room seen < fuel) :
    g.walk fuel (path, value) seen = some seen' ↔
      ∃ json, g.stringifyValue fuel value seen = some (json, seen') ∧
        Renders g (path, value) json := by
  induction fuel generalizing path value seen seen' with
  | zero => exact absurd hfuel (Nat.not_lt_zero _)
  | succ fuel ih =>
      simp only [renders_iff]
      cases value with
      | primitive p =>
          simp only [walk, stringifyValue, rule_primitive_iff]
          cases p.json <;> simp
      | object o =>
          cases hcontents : (g.node o).contents with
          | leaf p =>
              simp only [walk, stringifyValue, hcontents, rule_leaf_iff hcontents]
              cases p.json <;> simp
          | values shape values =>
              simp only [walk, stringifyValue, hcontents, rule_values_iff hcontents]
              split
              next ho =>
                  -- met again: the text is the mark, which no object or array has
                  simp only [Option.some.injEq, Prod.mk.injEq]
                  constructor
                  · intro h
                    split at h
                    · next hpath => exact ⟨_, ⟨rfl, Option.some.inj h⟩, .inl ⟨hpath, rfl⟩⟩
                    · cases h
                  · rintro ⟨_, ⟨rfl, rfl⟩, ⟨hpath, -⟩ | ⟨jsons, -, hjsons⟩⟩
                    · rw [if_pos hpath]
                    · exact absurd (Option.some.inj hjsons).symm (shape.json_ne_string _ _)
              next ho =>
                  have hroom : room (o :: seen) < fuel :=
                    (room_cons ho).trans_le (Nat.lt_succ_iff.mp hfuel)
                  have hvalues : values.foldlM (fun seen value =>
                        g.walk fuel (o :: path, value) seen) (o :: seen) = some seen' ↔
                      ∃ jsons, stringifyAll (g.stringifyValue fuel) values (o :: seen) =
                          some (jsons, seen') ∧
                        List.Forall₂ (fun value json => Renders g (o :: path, value) json)
                          values jsons :=
                    stringifyAll_iff (P := fun t => room t < fuel)
                      (fun _ _ _ _ _ hs h => (room_stringifyValue h).trans_lt hs)
                      (fun _ _ _ _ hs => ih hs) hroom
                  rw [hvalues, ← exists_text_iff (fits_contents hcontents)
                    fun value json json' s s' h h' => eq_of_getD_eq
                      ((eq_none_iff_of_stringifyValue h).trans
                        (eq_none_iff_of_rule (renders_iff.mp h')).symm)]
                  exact exists_congr fun json => and_congr_right fun hjson =>
                    ⟨.inr, fun h => h.resolve_left fun h => ne_circular_of_text hjson h.2⟩

/-! ### The text is JSON -/

/-- A text that is there has no key twice. -/
def ValidText (json : Option Json) : Prop := ∀ value, json = some value → value.Valid

lemma validItems_iff {items : List Json} : Json.ValidItems items ↔ ∀ item ∈ items, item.Valid := by
  induction items with
  | nil => simp [Json.ValidItems]
  | cons item items ih => rw [Json.ValidItems, ih, List.forall_mem_cons]

lemma validMembers_iff {members : List (String × Json)} :
    Json.ValidMembers members ↔ ∀ member ∈ members, member.2.Valid := by
  induction members with
  | nil => simp [Json.ValidMembers]
  | cons member members ih => rw [Json.ValidMembers, ih, List.forall_mem_cons]

lemma nodup_members {keys : List String} (hnodup : keys.Nodup) (jsons : List (Option Json)) :
    ((members keys jsons).map Prod.fst).Nodup := by
  induction keys generalizing jsons with
  | nil => exact List.nodup_nil
  | cons key keys ih =>
      obtain ⟨hkey, hnodup⟩ := List.nodup_cons.mp hnodup
      cases jsons with
      | nil => exact List.nodup_nil
      | cons json jsons =>
          rw [members_cons]
          cases json with
          | none => exact ih hnodup jsons
          | some value =>
              exact List.nodup_cons.mpr ⟨fun h => hkey (key_mem_of_members h), ih hnodup jsons⟩

lemma valid_json {shape : Shape} {jsons : List (Option Json)} (hfits : shape.Fits jsons.length)
    (hjsons : ∀ json ∈ jsons, ValidText json) : (shape.json jsons).Valid := by
  cases shape with
  | object keys =>
      refine ⟨nodup_members hfits.1 jsons, validMembers_iff.mpr fun member hmember => ?_⟩
      obtain ⟨⟨key, json⟩, hzip, hjson⟩ := List.mem_filterMap.mp hmember
      obtain ⟨value, rfl, rfl⟩ := Option.map_eq_some_iff.mp hjson
      exact hjsons _ (List.of_mem_zip hzip).2 value rfl
  | array =>
      refine validItems_iff.mpr fun item hitem => ?_
      obtain ⟨json, hjson, rfl⟩ := List.mem_map.mp hitem
      cases json with
      | none => trivial
      | some value => exact hjsons _ hjson value rfl

lemma validText_primitive {p : Primitive} {json : Option Json} (h : p.json = some json) :
    ValidText json := by
  rintro value rfl
  cases p with
  | number x => cases x <;> cases h <;> trivial
  | undefined => cases h
  | bigint value => cases h
  | _ =>
      cases h
      trivial

lemma valid_serializedError (e : SerializedError) : e.json.Valid := by
  obtain ⟨message, name, stack⟩ := e
  cases stack <;> simp [SerializedError.json, Json.Valid, Json.ValidMembers]

lemma forall_mem_of_forall₂ {α β : Type} {Q : β → Prop} {as : List α} {bs : List β}
    (h : List.Forall₂ (fun _ b => Q b) as bs) : ∀ b ∈ bs, Q b := by
  induction h with
  | nil => exact List.forall_mem_nil _
  | cons hhead _ ih => exact List.forall_mem_cons.mpr ⟨hhead, ih⟩

/-- The text of an object or an array is JSON when those of its values are. -/
lemma validText_of_all {α σ : Type} {f : α → σ → Option (Option Json × σ)} {values : List α}
    {shape : Shape} {s s' : σ} {json : Option Json} (hfits : shape.Fits values.length)
    (hf : ∀ value ∈ values, ∀ s json s', f value s = some (json, s') → ValidText json)
    (h : (stringifyAll f values s).map (fun (jsons, seen) => (some (shape.json jsons), seen)) =
      some (json, s')) : ValidText json := by
  obtain ⟨⟨jsons, t⟩, hjsons, hresult⟩ := Option.map_eq_some_iff.mp h
  obtain ⟨rfl, -⟩ := Prod.mk.inj hresult
  have hall : List.Forall₂ (fun _ json => ValidText json) values jsons :=
    stringifyAll_forall₂ hf hjsons
  rintro value ⟨⟩
  exact valid_json (hall.length_eq ▸ hfits) (forall_mem_of_forall₂ hall)

lemma validText_leaf {p : Primitive} {seen seen' : g.Seen} {json : Option Json}
    (h : p.json.map (·, seen) = some (json, seen')) : ValidText json := by
  obtain ⟨json, hjson, hresult⟩ := Option.map_eq_some_iff.mp h
  obtain ⟨rfl, -⟩ := Prod.mk.inj hresult
  exact validText_primitive hjson

lemma validText_value {fuel : ℕ} {value : Value g.size} {seen seen' : g.Seen}
    {json : Option Json} (h : g.stringifyValue fuel value seen = some (json, seen')) :
    ValidText json := by
  induction fuel generalizing value seen seen' json with
  | zero =>
      cases value with
      | primitive p => exact validText_leaf h
      | object o => cases h
  | succ fuel ih =>
      cases value with
      | primitive p => exact validText_leaf h
      | object o =>
          rw [stringifyValue] at h
          split at h
          next => exact validText_leaf h
          next shape values hcontents =>
              split at h
              next =>
                  obtain ⟨rfl, -⟩ := Prod.mk.inj (Option.some.inj h)
                  rintro value ⟨⟩
                  trivial
              next => exact validText_of_all (fits_contents hcontents) (fun _ _ _ _ _ => ih) h

end Metadata

end Blaize.Logger
