import Blaize.Lib.Js
import Blaize.Lib.Prefixes
import Blaize.Lib.Region

/-!
The state of a request and the accessors to it (`packages/blaize-core/src/context/state.ts`).

* `getState`, `setState`, `removeState`, `getStateMany`, `setStateMany`: the state itself;
* `perform`: an operation of an accessor of `createNamespacedState` or `createTypedState`;
* `Private`: a map of its own, with the same operations;
* `perform_private`: **an accessor works as on a map of its own**, the part of the state behind
  its prefix;
* `Overlap`: one namespace with its dot begins the other;
* `results_private`: **each accessor sees its own operations only**, in any run of all of them;
* `isolated_iff`: which namespaces leave each other alone.

Keys that are array indices keep the place of their insertion.
-/

namespace Blaize.Context

open Js

/-! ### The state -/

/-- A plain object; a value may be `undefined`. -/
abbrev Record (V : Type) := OrdMap String (Option V)

variable {V : Type}

/-- `object[key] = value`; to `__proto__` it adds no property. -/
def assign (object : Record V) (key : String) (value : Option V) : Record V :=
  if key = "__proto__" then object else object.set key value

/-- `Object.assign(target, source)` -/
def assignAll (target source : Record V) : Record V :=
  source.entries.foldl (fun target entry => assign target entry.1 entry.2) target

section

variable (inherited : String → V)

/-- `object[key]`, with what every object inherits. -/
def read (object : Record V) (key : String) : Option V :=
  match object.get key with
  | some value => value
  | none => if key ∈ objectMembers then some (inherited key) else none

/-- `key in object` -/
def hasProperty (object : Record V) (key : String) : Bool :=
  object.has key || key ∈ objectMembers

/-- `getState`; without a context there is the default only. -/
def getState (context : Option (Record V)) (key : String) (defaultValue : Option V) : Option V :=
  match context with
  | none => defaultValue
  | some state => (read inherited state key).or defaultValue

/-- `setState(key, value)`: whether there was a context, and the state. -/
def setState (context : Option (Record V)) (key : String) (value : Option V) :
    Bool × Option (Record V) :=
  match context with
  | none => (false, none)
  | some state => (true, some (assign state key value))

/-- `removeState(key)` -/
def removeState (context : Option (Record V)) (key : String) : Bool × Option (Record V) :=
  match context with
  | none => (false, none)
  | some state =>
      if hasProperty state key then (true, some (state.delete key)) else (false, some state)

/-- `getStateMany(keys)`: the values of the keys that are there. -/
def getStateMany (context : Option (Record V)) (keys : List String) : Record V :=
  match context with
  | none => ∅
  | some state =>
      keys.foldl (fun result key =>
        if hasProperty state key then assign result key (read inherited state key) else result) ∅

/-- `setStateMany(values)` -/
def setStateMany (context : Option (Record V)) (values : Record V) : Bool × Option (Record V) :=
  match context with
  | none => (false, none)
  | some state => (true, some (assignAll state values))

end

/-! ### The accessors -/

/-- `${namespace}.` -/
def prefixOf (namespaceName : String) : String := namespaceName ++ "."

/-- `${namespace}.${key}` -/
def qualify (namespaceName key : String) : String := prefixOf namespaceName ++ key

/-- `key.slice(prefix.length)`, if `key.startsWith(prefix)` -/
def unqualify (namespaceName key : String) : Option String := Js.behind (prefixOf namespaceName) key

/-- An operation of an accessor; `getAllKeys` is only there without types, `getAll` and `setMany`
only with them. -/
inductive Operation (V : Type) where
  | get (key : String) (defaultValue : Option V)
  | set (key : String) (value : Option V)
  | remove (key : String)
  | getAllKeys
  | getAll
  | setMany (values : Record V)
  | clear

/-- What an operation returns. -/
inductive Result (V : Type) where
  | value (value : Option V)
  | done (success : Bool)
  | keys (keys : List String)
  | record (values : Record V)

/-- `getAll` -/
def getAll (namespaceName : String) (context : Option (Record V)) : Record V :=
  match context with
  | none => ∅
  | some state =>
      (state.entries.filterMap fun entry =>
        (unqualify namespaceName entry.1).map (·, entry.2)).foldl
          (fun result entry => assign result entry.1 entry.2) ∅

/-- `setMany` -/
def setMany (namespaceName : String) (values : Record V) (context : Option (Record V)) :
    Bool × Option (Record V) :=
  match context with
  | none => (false, none)
  | some state =>
      let prefixedValues := values.entries.foldl
        (fun prefixed entry => assign prefixed (qualify namespaceName entry.1) entry.2) ∅
      (true, some (assignAll state prefixedValues))

/-- `clear` -/
def clear (namespaceName : String) (context : Option (Record V)) : Bool × Option (Record V) :=
  match context with
  | none => (false, none)
  | some state =>
      let keysToRemove := state.keys.filter fun key => (unqualify namespaceName key).isSome
      (true, some (keysToRemove.foldl (fun state key => state.delete key) state))

/-- What an operation of an accessor does. -/
def perform (inherited : String → V) (namespaceName : String) (context : Option (Record V)) :
    Operation V → Result V × Option (Record V)
  | .get key defaultValue =>
      (.value (getState inherited context (qualify namespaceName key) defaultValue), context)
  | .set key value =>
      (setState context (qualify namespaceName key) value).map .done id
  | .remove key => (removeState context (qualify namespaceName key)).map .done id
  | .getAllKeys =>
      (.keys ((context.elim [] OrdMap.keys).filterMap (unqualify namespaceName)), context)
  | .getAll => (.record (getAll namespaceName context), context)
  | .setMany values => (setMany namespaceName values context).map .done id
  | .clear => (clear namespaceName context).map .done id

/-! ### A map of its own -/

/-- The operations on a map that belongs to one accessor alone. -/
def Private.perform (own : Record V) : Operation V → Result V × Record V
  | .get key defaultValue => (.value (((own.get key).getD none).or defaultValue), own)
  | .set key value => (.done true, own.set key value)
  | .remove key => (.done (own.has key), own.delete key)
  | .getAllKeys => (.keys own.keys, own)
  | .getAll => (.record (assignAll ∅ own), own)
  | .setMany values => (.done true, values.entries.foldl (fun own e => own.set e.1 e.2) own)
  | .clear => (.done true, ∅)

section

variable {namespaceName : String}

lemma toList_qualify (namespaceName key : String) :
    (qualify namespaceName key).toList = (prefixOf namespaceName).toList ++ key.toList :=
  String.toList_append

lemma unqualify_eq_some_iff (namespaceName key : String) (qualified : String) :
    unqualify namespaceName qualified = some key ↔ qualify namespaceName key = qualified :=
  Js.behind_eq_some_iff

/-- The keys of a namespace stand for the short ones. -/
lemma partialInv (namespaceName : String) :
    Function.IsPartialInv (qualify namespaceName) (unqualify namespaceName) :=
  Js.isPartialInv_behind (prefixOf namespaceName)

lemma unqualify_qualify (namespaceName key : String) :
    unqualify namespaceName (qualify namespaceName key) = some key :=
  (unqualify_eq_some_iff namespaceName key _).mpr rfl

/-- The part of the state that an accessor sees. -/
def own (namespaceName : String) (state : Record V) : Record V :=
  state.region (partialInv namespaceName)

lemma dot_mem_qualify (namespaceName key : String) : '.' ∈ (qualify namespaceName key).toList := by
  rw [toList_qualify, prefixOf, String.toList_append]
  simp

/-- No inherited name has a dot. -/
lemma qualify_notMem_objectMembers (namespaceName key : String) :
    qualify namespaceName key ∉ objectMembers := by
  have hdots : ∀ name ∈ objectMembers, '.' ∉ name.toList := by decide
  exact fun hmem => hdots _ hmem (dot_mem_qualify namespaceName key)

lemma assign_qualify (object : Record V) (key : String) (value : Option V) :
    assign object (qualify namespaceName key) value = object.set (qualify namespaceName key)
      value := by
  rw [assign, if_neg]
  intro h
  exact qualify_notMem_objectMembers namespaceName key (h ▸ by decide)

/-! ### One operation -/

/-- The values of `setMany` under their qualified keys. -/
lemma entries_prefixed (values : Record V) :
    (values.entries.foldl (fun prefixed entry =>
      assign prefixed (qualify namespaceName entry.1) entry.2) ∅).entries =
        values.entries.map fun entry => (qualify namespaceName entry.1, entry.2) := by
  have hset : (fun (prefixed : Record V) (entry : String × Option V) =>
      assign prefixed (qualify namespaceName entry.1) entry.2) =
        fun prefixed entry => prefixed.set (qualify namespaceName entry.1) entry.2 :=
    funext₂ fun prefixed entry => assign_qualify prefixed entry.1 entry.2
  have hmap : ((values.entries.map fun entry => (qualify namespaceName entry.1, entry.2)).map
      Prod.fst).Nodup := by
    rw [List.map_map]
    have hkeys := values.nodup.map (partialInv namespaceName).injective
    rw [List.map_map] at hkeys
    exact hkeys
  rw [hset, ← OrdMap.entries_foldl_set hmap, List.foldl_map]

lemma setMany_eq (values state : Record V) :
    setMany namespaceName values (some state) =
      (true, some (values.entries.foldl
        (fun state entry => state.set (qualify namespaceName entry.1) entry.2) state)) := by
  rw [setMany]
  refine congrArg (fun state => (true, some state)) ?_
  rw [assignAll, entries_prefixed, List.foldl_map]
  exact congrArg (fun f => List.foldl f state values.entries)
    (funext₂ fun state entry => assign_qualify state entry.1 entry.2)

lemma own_foldl_set (entries : List (String × Option V)) (state : Record V) :
    own namespaceName
      (entries.foldl (fun state entry => state.set (qualify namespaceName entry.1) entry.2) state) =
        entries.foldl (fun m e => m.set e.1 e.2) (own namespaceName state) := by
  induction entries generalizing state with
  | nil => rfl
  | cons entry entries ih =>
      rw [List.foldl_cons, List.foldl_cons, ih]
      exact congrArg (fun m => List.foldl (fun m e => OrdMap.set m e.1 e.2) m entries)
        (OrdMap.region_set (partialInv namespaceName) state entry.1 entry.2)

/-- The keys that `clear` removes are those of the namespace. -/
lemma get_clear (state : Record V) (key : String) :
    (((state.keys.filter fun key => (unqualify namespaceName key).isSome).foldl
      (fun state key => state.delete key) state).get key) =
        if (unqualify namespaceName key).isSome then none else state.get key := by
  rw [OrdMap.get_foldl_delete]
  by_cases hkey : (unqualify namespaceName key).isSome
  · rw [if_pos hkey]
    by_cases hmem : key ∈ state.keys
    · rw [if_pos (List.mem_filter.mpr ⟨hmem, hkey⟩)]
    · rw [if_neg fun h => hmem (List.mem_filter.mp h).1]
      exact OrdMap.find_eq_none_iff.mpr hmem
  · have hmem : key ∉ state.keys.filter fun key => (unqualify namespaceName key).isSome :=
      fun h => hkey (List.mem_filter.mp h).2
    rw [if_neg hkey, if_neg hmem]

lemma own_clear (state : Record V) :
    own namespaceName ((state.keys.filter fun key => (unqualify namespaceName key).isSome).foldl
      (fun state key => state.delete key) state) = ∅ := by
  refine OrdMap.ext (List.eq_nil_iff_forall_not_mem.mpr fun entry hentry => ?_)
  have hget := (OrdMap.mem_entries_iff _).mp hentry
  rw [own, OrdMap.get_region, get_clear, unqualify_qualify] at hget
  cases hget

lemma read_qualify (inherited : String → V) (state : Record V) (key : String) :
    read inherited state (qualify namespaceName key) =
      ((own namespaceName state).get key).getD none := by
  rw [read, own, OrdMap.get_region]
  cases state.get (qualify namespaceName key) with
  | some value => rfl
  | none => exact if_neg (qualify_notMem_objectMembers namespaceName key)

lemma removeState_qualify (state : Record V) (key : String) :
    removeState (some state) (qualify namespaceName key) =
      ((own namespaceName state).has key, some (state.delete (qualify namespaceName key))) := by
  have hhas : (own namespaceName state).has key = state.has (qualify namespaceName key) := by
    rw [OrdMap.has, own, OrdMap.get_region]
    rfl
  rw [removeState, hasProperty, decide_eq_false (qualify_notMem_objectMembers namespaceName key),
    Bool.or_false, hhas]
  cases h : state.has (qualify namespaceName key) with
  | true => rfl
  | false =>
      rw [OrdMap.delete_of_get_none ((OrdMap.has_eq_false_iff state).mp h)]
      rfl

/-- **An accessor works as on a map of its own.** -/
theorem perform_private (inherited : String → V) (namespaceName : String) (state : Record V)
    (operation : Operation V) :
    ∃ state', perform inherited namespaceName (some state) operation =
        ((Private.perform (own namespaceName state) operation).1, some state') ∧
      own namespaceName state' = (Private.perform (own namespaceName state) operation).2 := by
  cases operation with
  | get key defaultValue =>
      refine ⟨state, ?_, rfl⟩
      rw [perform, getState, read_qualify]
      rfl
  | set key value =>
      refine ⟨state.set (qualify namespaceName key) value, ?_, OrdMap.region_set ..⟩
      rw [perform, setState, assign_qualify]
      rfl
  | remove key =>
      refine ⟨state.delete (qualify namespaceName key), ?_, OrdMap.region_delete ..⟩
      rw [perform, removeState_qualify]
      rfl
  | getAllKeys =>
      refine ⟨state, ?_, rfl⟩
      rw [perform, Private.perform, own, OrdMap.keys_region]
      rfl
  | getAll => exact ⟨state, rfl, rfl⟩
  | setMany values =>
      refine ⟨_, ?_, own_foldl_set values.entries state⟩
      rw [perform, setMany_eq]
      rfl
  | clear => exact ⟨_, rfl, own_clear state⟩

end

/-! ### Runs -/

/-- One namespace with its dot begins the other. -/
def Overlap (namespaceName other : String) : Prop :=
  Js.Overlap (prefixOf namespaceName) (prefixOf other)

instance (namespaceName other : String) : Decidable (Overlap namespaceName other) :=
  inferInstanceAs (Decidable (Js.Overlap _ _))

section

variable {namespaceName other : String}

/-- A key of one namespace is none of the other. -/
lemma unqualify_of_not_overlap (h : ¬ Overlap namespaceName other) (key : String) :
    unqualify other (qualify namespaceName key) = none := Js.behind_of_not_overlap h key

lemma own_foldl_delete {keys : List String} (h : ∀ key ∈ keys, unqualify other key = none)
    (state : Record V) :
    own other (keys.foldl (fun state key => state.delete key) state) = own other state := by
  induction keys generalizing state with
  | nil => rfl
  | cons key keys ih =>
      rw [List.foldl_cons, ih fun k hk => h k (List.mem_cons_of_mem _ hk)]
      exact OrdMap.region_delete_of_none _ state (h key List.mem_cons_self)

/-- **What an accessor does changes nothing for another one**, unless their namespaces overlap. -/
lemma own_perform (inherited : String → V) (h : ¬ Overlap namespaceName other)
    (state : Record V) (operation : Operation V) :
    ∃ state', (perform inherited namespaceName (some state) operation).2 = some state' ∧
      own other state' = own other state := by
  have hset (state : Record V) (key : String) (value : Option V) :
      own other (state.set (qualify namespaceName key) value) = own other state :=
    OrdMap.region_set_of_none _ state (unqualify_of_not_overlap h key) value
  cases operation with
  | get key defaultValue => exact ⟨state, rfl, rfl⟩
  | set key value =>
      refine ⟨_, ?_, hset state key value⟩
      rw [perform, setState, assign_qualify]
      rfl
  | remove key =>
      refine ⟨_, ?_, OrdMap.region_delete_of_none _ state (unqualify_of_not_overlap h key)⟩
      rw [perform, removeState_qualify]
      rfl
  | getAllKeys => exact ⟨state, rfl, rfl⟩
  | getAll => exact ⟨state, rfl, rfl⟩
  | setMany values =>
      have hfold (entries : List (String × Option V)) (state : Record V) :
          own other (entries.foldl (fun state entry =>
            state.set (qualify namespaceName entry.1) entry.2) state) = own other state := by
        induction entries generalizing state with
        | nil => rfl
        | cons entry entries ih => rw [List.foldl_cons, ih, hset]
      refine ⟨_, ?_, hfold values.entries state⟩
      rw [perform, setMany_eq]
      rfl
  | clear =>
      refine ⟨_, rfl, own_foldl_delete (fun key hkey => ?_) state⟩
      obtain ⟨short, hshort⟩ := Option.isSome_iff_exists.mp (List.mem_filter.mp hkey).2
      rw [← (unqualify_eq_some_iff namespaceName short key).mp hshort]
      exact unqualify_of_not_overlap h short

end

/-- The results of the operations of all accessors, each with the namespace. -/
def results (inherited : String → V) :
    Option (Record V) → List (String × Operation V) → List (String × Result V)
  | _, [] => []
  | context, call :: calls =>
      let performed := perform inherited call.1 context call.2
      (call.1, performed.1) :: results inherited performed.2 calls

/-- What the operations return on a state that nobody else has. -/
def Private.results : Record V → List (Operation V) → List (Result V)
  | _, [] => []
  | own, operation :: operations =>
      (Private.perform own operation).1 ::
        Private.results (Private.perform own operation).2 operations

/-- What belongs to one namespace. -/
def ofNamespace {α : Type} (namespaceName : String) (all : List (String × α)) : List α :=
  (all.filter (·.1 = namespaceName)).map Prod.snd

/-- **Each accessor sees its own operations only**: in any run of all of them, its results are
those of a map of its own. -/
theorem results_private (inherited : String → V) (namespaceName : String) (state : Record V)
    (calls : List (String × Operation V))
    (h : ∀ call ∈ calls, call.1 = namespaceName ∨ ¬ Overlap call.1 namespaceName) :
    ofNamespace namespaceName (results inherited (some state) calls) =
      Private.results (own namespaceName state) (ofNamespace namespaceName calls) := by
  induction calls generalizing state with
  | nil => rfl
  | cons call calls ih =>
      have hrest := fun state => ih state fun c hc => h c (List.mem_cons_of_mem _ hc)
      rw [results, ofNamespace, ofNamespace]
      by_cases hcall : call.1 = namespaceName
      · obtain ⟨state', hperform, hown⟩ := perform_private inherited call.1 state call.2
        have hsame : own namespaceName state' =
            (Private.perform (own namespaceName state) call.2).2 := hcall ▸ hown
        rw [List.filter_cons_of_pos (by simpa using hcall),
          List.filter_cons_of_pos (by simpa using hcall), List.map_cons, List.map_cons,
          Private.results, ← hsame, hperform, ← hcall]
        exact congrArg _ (hcall ▸ hrest state')
      · have hfree := (h call List.mem_cons_self).resolve_left hcall
        obtain ⟨state', hperform, hown⟩ :=
          own_perform inherited hfree state call.2
        rw [List.filter_cons_of_neg (by simpa using hcall),
          List.filter_cons_of_neg (by simpa using hcall), hperform]
        exact (hrest state').trans (hown ▸ rfl)

/-- What the one accessor clears is not what the other one set. -/
theorem results_private_of_clear :
    ofNamespace "user" (results (fun _ => 0) (some ∅)
      [("user", .set "id" (some 7)), ("cart", .clear), ("user", .get "id" none)]) =
        [.done true, .value (some 7)] :=
  results_private (fun _ => 0) "user" ∅ [("user", .set "id" (some 7)), ("cart", .clear),
    ("user", .get "id" none)] (by decide)

/-- The state after operations of one accessor. -/
def after (inherited : String → V) (namespaceName : String) (context : Option (Record V))
    (operations : List (Operation V)) : Option (Record V) :=
  operations.foldl (fun context operation => (perform inherited namespaceName context operation).2)
    context

lemma own_after (inherited : String → V) {namespaceName other : String}
    (h : ¬ Overlap namespaceName other) (operations : List (Operation V)) (state : Record V) :
    ∃ state', after inherited namespaceName (some state) operations = some state' ∧
      own other state' = own other state := by
  induction operations generalizing state with
  | nil => exact ⟨state, rfl, rfl⟩
  | cons operation operations ih =>
      obtain ⟨state₁, hperform, hown₁⟩ := own_perform inherited h state operation
      obtain ⟨state₂, hafter, hown₂⟩ := ih state₁
      refine ⟨state₂, ?_, hown₂.trans hown₁⟩
      rw [after, List.foldl_cons, hperform]
      exact hafter

/-- **Two accessors leave each other alone exactly if their namespaces do not overlap**: no
operations of the one ever show in a result of the other. -/
theorem isolated_iff (inherited : String → V) (namespaceName other : String) :
    (∀ (state : Record V) (operations : List (Operation V)) (operation : Operation V),
      (perform inherited other (after inherited namespaceName (some state) operations)
        operation).1 = (perform inherited other (some state) operation).1) ↔
      ¬ Overlap namespaceName other := by
  constructor
  · intro h hoverlap
    -- a key behind both prefixes, which the other accessor then lists
    obtain ⟨key, short, hsame⟩ := Js.exists_behind_of_overlap hoverlap
    have hshort : unqualify other (qualify namespaceName key) = some short :=
      (unqualify_eq_some_iff other short _).mpr hsame.symm
    have hlisted := h ∅ [.set key none] .getAllKeys
    have hafter : after inherited namespaceName (some (∅ : Record V)) [.set key none] =
        some (OrdMap.set ∅ (qualify namespaceName key) none) := by
      rw [after, List.foldl_cons, List.foldl_nil, perform, setState, assign_qualify]
      rfl
    rw [hafter, perform, perform] at hlisted
    have hkeys : [short] = [] := by
      have hfilter : ([qualify namespaceName key].filterMap (unqualify other)) = [short] := by
        rw [List.filterMap_cons_some hshort, List.filterMap_nil]
      exact hfilter.symm.trans (Result.keys.inj hlisted)
    cases hkeys
  · intro h state operations operation
    obtain ⟨state', hafter, hown⟩ := own_after inherited h operations state
    obtain ⟨_, hperform', -⟩ := perform_private inherited other state' operation
    obtain ⟨_, hperform, -⟩ := perform_private inherited other state operation
    rw [hafter, hperform', hperform, hown]

end Blaize.Context
