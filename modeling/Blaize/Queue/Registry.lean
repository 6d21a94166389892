import Blaize.Queue.Instance

/-!
The handler registry (`plugins/queue/src/plugin.ts`): the handlers of all queues in one map.

The order of properties with integer names is left out; it decides only which one of two
declarations with the same key is kept.

* `buildHandlerRegistry`: the loops of `initialize`;
* `mem_declarations_iff`: what the loops set;
* `key_eq`: two ways to read one key;
* `Unambiguous`: queues with nested names declare the same;
* `resolves_iff_unambiguous`: **each lookup of `executeJob` finds what is declared, if and only if
  the names are unambiguous**.
-/

namespace Blaize.Queue

/-! ### The plugin -/

variable {H S : Type}

/-- A definition as `defineJob` makes it, with its handler and its two schemas. -/
structure JobDefinition (H S : Type) where
  /-- `_type` -/
  tag : String := "definition"
  input : S
  output : S
  handler : H

/-- What a queue of the configuration declares. -/
structure QueueDeclaration (H S : Type) where
  jobs : Option (OrdMap String (JobDefinition H S)) := none

/-- What is registered for a type of jobs. -/
structure Registration (H S : Type) where
  handler : H
  inputSchema : S
  outputSchema : S
  deriving DecidableEq

/-- What a definition registers. -/
def JobDefinition.registration (jobDef : JobDefinition H S) : Registration H S :=
  ⟨jobDef.handler, jobDef.input, jobDef.output⟩

/-- The key of a queue and a type of jobs. -/
def registryKey (queueName jobType : String) : String := queueName ++ ":" ++ jobType

/-- The inner loop, for the jobs of one queue. -/
def registerJobs (queueName : String) (registry : OrdMap String (Registration H S))
    (jobs : OrdMap String (JobDefinition H S)) : OrdMap String (Registration H S) :=
  jobs.entries.foldl (fun registry (jobType, jobDef) =>
    if jobDef.tag = "definition" then
      registry.set (registryKey queueName jobType) jobDef.registration
    else registry) registry

/-- The registry of all queues. -/
def buildHandlerRegistry (queues : OrdMap String (QueueDeclaration H S)) :
    OrdMap String (Registration H S) :=
  queues.entries.foldl (fun registry (queueName, queueConfig) =>
    match queueConfig.jobs with
    | some jobs => registerJobs queueName registry jobs
    | none => registry) ∅

/-- The lookup in `executeJob` of the instance of a queue. -/
def lookup (queues : OrdMap String (QueueDeclaration H S)) (queueName jobType : String) :
    Option (Registration H S) :=
  (buildHandlerRegistry queues).get (registryKey queueName jobType)

/-- The lookup is that of the instance, with the two schemas that it parses with. -/
lemma registration_eq_lookup {V : Type} (cfg : QueueConfig V)
    {queues : OrdMap String (QueueDeclaration H (V → Except (List ValidationIssue) V))}
    (h : cfg.handlerRegistry =
      (buildHandlerRegistry queues).mapValues fun r => ⟨r.inputSchema, r.outputSchema⟩)
    (jobType : String) :
    cfg.registration jobType =
      (lookup queues cfg.name jobType).map fun r => ⟨r.inputSchema, r.outputSchema⟩ := by
  rw [QueueConfig.registration, h, OrdMap.get_mapValues]
  rfl

/-! ### What is declared -/

/-- The declaration under `queues[queueName].jobs[jobType]`. -/
def declared (queues : OrdMap String (QueueDeclaration H S)) (queueName jobType : String) :
    Option (Registration H S) := do
  let queueConfig ← queues.get queueName
  let jobs ← queueConfig.jobs
  let jobDef ← jobs.get jobType
  if jobDef.tag = "definition" then some jobDef.registration else none

/-- Where one queue's name is another's with a colon and more, the two declare the same under the
names that have the same key. -/
def Unambiguous (queues : OrdMap String (QueueDeclaration H S)) : Prop :=
  ∀ queueName more, queues.has queueName = true → queues.has (registryKey queueName more) = true →
    ∀ jobType, declared queues queueName (registryKey more jobType) =
      declared queues (registryKey queueName more) jobType

/-- What the inner loop sets, in its order. -/
def jobDeclarations (queueName : String) (jobs : OrdMap String (JobDefinition H S)) :
    List (String × Registration H S) :=
  jobs.entries.filterMap fun (jobType, jobDef) =>
    if jobDef.tag = "definition" then some (registryKey queueName jobType, jobDef.registration)
    else none

/-- What the loops set, in their order. -/
def declarations (queues : OrdMap String (QueueDeclaration H S)) :
    List (String × Registration H S) :=
  queues.entries.flatMap fun (queueName, queueConfig) =>
    match queueConfig.jobs with
    | some jobs => jobDeclarations queueName jobs
    | none => []

lemma registerJobs_eq (queueName : String) (registry : OrdMap String (Registration H S))
    (jobs : OrdMap String (JobDefinition H S)) :
    registerJobs queueName registry jobs =
      (jobDeclarations queueName jobs).foldl (fun registry e => registry.set e.1 e.2) registry := by
  rw [registerJobs, jobDeclarations, List.foldl_filterMap]
  refine List.foldl_ext _ _ _ fun registry e _ => ?_
  by_cases h : e.2.tag = "definition"
  · simp [h]
  · simp [h]

lemma buildHandlerRegistry_eq (queues : OrdMap String (QueueDeclaration H S)) :
    buildHandlerRegistry queues =
      (declarations queues).foldl (fun registry e => registry.set e.1 e.2) ∅ := by
  rw [buildHandlerRegistry, declarations, List.foldl_flatMap]
  refine List.foldl_ext _ _ _ fun registry e _ => ?_
  dsimp only
  cases e.2.jobs with
  | none => rfl
  | some jobs => exact registerJobs_eq e.1 registry jobs

lemma mem_jobDeclarations_iff {queueName key : String} {jobs : OrdMap String (JobDefinition H S)}
    {r : Registration H S} :
    (key, r) ∈ jobDeclarations queueName jobs ↔
      ∃ jobType, key = registryKey queueName jobType ∧
        ((jobs.get jobType).bind fun jobDef =>
          if jobDef.tag = "definition" then some jobDef.registration else none) = some r := by
  rw [jobDeclarations, List.mem_filterMap]
  constructor
  · rintro ⟨⟨jobType, jobDef⟩, hmem, h⟩
    dsimp only at h
    split at h
    next htag =>
        obtain ⟨rfl, rfl⟩ := Prod.mk.inj (Option.some.inj h)
        refine ⟨jobType, rfl, ?_⟩
        rw [jobs.mem_entries_iff.mp hmem, Option.bind_some, if_pos htag]
    next => cases h
  · rintro ⟨jobType, rfl, h⟩
    obtain ⟨jobDef, hget, h⟩ := Option.bind_eq_some_iff.mp h
    refine ⟨(jobType, jobDef), jobs.mem_entries_iff.mpr hget, ?_⟩
    dsimp only
    split at h
    next htag => rw [if_pos htag, Option.some.inj h]
    next => cases h

/-- The loops set exactly what is declared. -/
lemma mem_declarations_iff {queues : OrdMap String (QueueDeclaration H S)} {key : String}
    {r : Registration H S} :
    (key, r) ∈ declarations queues ↔
      ∃ queueName jobType, key = registryKey queueName jobType ∧
        declared queues queueName jobType = some r := by
  rw [declarations, List.mem_flatMap]
  constructor
  · rintro ⟨⟨queueName, queueConfig⟩, hmem, h⟩
    cases hjobs : queueConfig.jobs with
    | none => simp [hjobs] at h
    | some jobs =>
        simp only [hjobs] at h
        obtain ⟨jobType, hkey, h⟩ := mem_jobDeclarations_iff.mp h
        refine ⟨queueName, jobType, hkey, ?_⟩
        simpa only [declared, queues.mem_entries_iff.mp hmem, Option.bind_eq_bind,
          Option.bind_some, hjobs] using h
  · rintro ⟨queueName, jobType, rfl, h⟩
    simp only [declared, Option.bind_eq_bind] at h
    obtain ⟨queueConfig, hqueue, h⟩ := Option.bind_eq_some_iff.mp h
    obtain ⟨jobs, hjobs, h⟩ := Option.bind_eq_some_iff.mp h
    refine ⟨(queueName, queueConfig), queues.mem_entries_iff.mpr hqueue, ?_⟩
    simp only [hjobs]
    exact mem_jobDeclarations_iff.mpr ⟨jobType, rfl, h⟩

/-- What a lookup finds is declared under some names with the key. -/
lemma declared_of_lookup {queues : OrdMap String (QueueDeclaration H S)}
    {queueName jobType : String} {r : Registration H S}
    (h : lookup queues queueName jobType = some r) :
    ∃ queueName' jobType', registryKey queueName jobType = registryKey queueName' jobType' ∧
      declared queues queueName' jobType' = some r := by
  rw [lookup, buildHandlerRegistry_eq] at h
  rcases OrdMap.mem_or_get_of_get_foldl_set h with hmem | hget
  · exact mem_declarations_iff.mp hmem
  · cases hget

/-- Where something is declared, a lookup finds something. -/
lemma lookup_ne_none {queues : OrdMap String (QueueDeclaration H S)} {queueName jobType : String}
    {r : Registration H S} (h : declared queues queueName jobType = some r) :
    lookup queues queueName jobType ≠ none := by
  rw [lookup, buildHandlerRegistry_eq]
  have hmem := mem_declarations_iff.mpr ⟨queueName, jobType, rfl, h⟩
  exact OrdMap.get_foldl_set_ne_none (.inl (List.mem_map.mpr ⟨_, hmem, rfl⟩))

lemma has_of_declared {queues : OrdMap String (QueueDeclaration H S)} {queueName jobType : String}
    {r : Registration H S} (h : declared queues queueName jobType = some r) :
    queues.has queueName = true := by
  simp only [declared, Option.bind_eq_bind] at h
  obtain ⟨queueConfig, hqueue, -⟩ := Option.bind_eq_some_iff.mp h
  exact queues.has_iff.mpr ⟨queueConfig, hqueue⟩

/-! ### Keys -/

lemma toList_registryKey (queueName jobType : String) :
    (registryKey queueName jobType).toList = queueName.toList ++ ':' :: jobType.toList := by
  simp [registryKey]

/-- A key that is read with a longer name of the queue. -/
lemma key_longer {q t q' t' : String} {rest : List Char} (hq : q'.toList = q.toList ++ rest)
    (ht : ':' :: t.toList = rest ++ ':' :: t'.toList) :
    (q = q' ∧ t = t') ∨ ∃ more, q' = registryKey q more ∧ t = registryKey more t' := by
  cases rest with
  | nil =>
      refine .inl ⟨String.toList_inj.mp (by simpa using hq.symm), ?_⟩
      exact String.toList_inj.mp (List.cons.inj ht).2
  | cons c rest =>
      obtain ⟨hc, htail⟩ := List.cons.inj ht
      refine .inr ⟨String.ofList rest, String.toList_inj.mp ?_, String.toList_inj.mp ?_⟩
      · rw [hq, ← hc, toList_registryKey, String.toList_ofList]
      · rw [htail, toList_registryKey, String.toList_ofList]
        rfl

/-- **Two ways to read one key**: they are the same, or one queue's name goes on with a colon. -/
lemma key_eq {q t q' t' : String} (h : registryKey q t = registryKey q' t') :
    (q = q' ∧ t = t') ∨ (∃ more, q' = registryKey q more ∧ t = registryKey more t') ∨
      ∃ more, q = registryKey q' more ∧ t' = registryKey more t := by
  have hlist := congrArg String.toList h
  rw [toList_registryKey, toList_registryKey] at hlist
  rcases List.append_eq_append_iff.mp hlist with ⟨rest, hq, ht⟩ | ⟨rest, hq, ht⟩
  · exact (key_longer hq ht).imp_right .inl
  · rcases key_longer hq ht with ⟨rfl, rfl⟩ | hmore
    · exact .inl ⟨rfl, rfl⟩
    · exact .inr (.inr hmore)

lemma registryKey_assoc (q more t : String) :
    registryKey q (registryKey more t) = registryKey (registryKey q more) t := by
  simp [registryKey, String.append_assoc]

/-! ### The lookups -/

/-- In unambiguous configurations two ways to read one key declare the same. -/
lemma declared_eq_of_key_eq {queues : OrdMap String (QueueDeclaration H S)}
    (h : Unambiguous queues) {q t q' t' : String} (hq : queues.has q = true)
    (hq' : queues.has q' = true) (hkey : registryKey q t = registryKey q' t') :
    declared queues q t = declared queues q' t' := by
  rcases key_eq hkey with ⟨rfl, rfl⟩ | ⟨more, rfl, rfl⟩ | ⟨more, rfl, rfl⟩
  · rfl
  · exact h q more hq hq' t'
  · exact (h q' more hq' hq t).symm

/-- **The lookups of all queues find exactly what is declared there, if and only if the names are
unambiguous.** -/
theorem resolves_iff_unambiguous (queues : OrdMap String (QueueDeclaration H S)) :
    (∀ queueName, queues.has queueName = true → ∀ jobType,
        lookup queues queueName jobType = declared queues queueName jobType) ↔
      Unambiguous queues := by
  constructor
  · intro h queueName more hqueue hnested jobType
    rw [← h queueName hqueue, ← h (registryKey queueName more) hnested, lookup, lookup,
      registryKey_assoc]
  · intro h queueName hqueue jobType
    cases hlookup : lookup queues queueName jobType with
    | some r =>
        obtain ⟨q', t', hkey, hdeclared⟩ := declared_of_lookup hlookup
        rw [declared_eq_of_key_eq h hqueue (has_of_declared hdeclared) hkey, hdeclared]
    | none =>
        cases hdeclared : declared queues queueName jobType with
        | none => rfl
        | some r => exact absurd hlookup (lookup_ne_none hdeclared)

/-- A queue `mail` with the job type `daily:send`, and a queue `mail:daily` without jobs. -/
def nestedNames : OrdMap String (QueueDeclaration ℕ ℕ) :=
  let jobs := OrdMap.set ∅ "daily:send" { input := 1, output := 2, handler := 3 }
  (OrdMap.set ∅ "mail" { jobs := some jobs }).set "mail:daily" {}

/-- The second queue runs the handler of the first one. -/
theorem not_resolves : lookup nestedNames "mail:daily" "send" = some ⟨3, 1, 2⟩ ∧
    declared nestedNames "mail:daily" "send" = none := by
  decide

end Blaize.Queue
