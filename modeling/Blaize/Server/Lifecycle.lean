import Blaize.Server.Start

/-!
The hooks of the plugins (`plugins/lifecycle.ts` and `register` of `server/create.ts` in
`packages/blaize-core/src`).

A method of the manager calls one hook of all plugins, one after the other.  Any number of them
may run at a time, and plugins may be registered at any time, by a hook for example: the methods
that go forward have the array itself to iterate over, so that they come to these too, and those
that go backward a reversed copy of it.

An action is a call of `register()`, a call of a method up to its first `await`, or the settlement
of what a method awaits.  The manager has no `onError`, as that of a server.

* `toNext`: the loop of a method up to its next `await`;
* `Walk.Sound`: what a method has called the hook of;
* `Walk.Sound.goOn`, `sound_step`: **each step keeps to this**, in any order of the steps;
* `called_of_resolves`: a method that goes forward has come to all plugins when it resolves;
* `called_of_start`: one that goes backward to those that there were when it was called;
* `terminated_iff`: **what was initialised is terminated in the opposite order exactly if no plugin
  with both hooks is registered between the two**.
-/

namespace Blaize.Lifecycle

open Machine

/-! ### Data -/

/-- The hooks of a plugin. -/
inductive Hook where
  | register
  | init
  | terminate
  | onServerStart
  | onServerStop
  deriving DecidableEq, Repr

/-- The phase that an error names. -/
def Hook.phase : Hook → String
  | .register => "register"
  | .init => "initialize"
  | .terminate => "terminate"
  | .onServerStart => "onServerStart"
  | .onServerStop => "onServerStop"

/-- Whether the method of the hook goes backward. -/
def Hook.backward : Hook → Bool
  | .terminate | .onServerStop => true
  | _ => false

/-- A plugin, with the hooks that it has beside `register`. -/
structure Plugin where
  name : String
  hooks : List Hook := []
  deriving DecidableEq, Repr

/-- Whether a plugin has a hook; `register` is no option. -/
def Plugin.has (plugin : Plugin) (hook : Hook) : Bool :=
  hook = .register ∨ hook ∈ plugin.hooks

/-- The options of the lifecycle manager. -/
structure PluginLifecycleOptions where
  continueOnError : Bool := true

/-- Where a walk over the plugins stands. -/
inductive Status where
  | awaits (plugin : Plugin)
  | resolved
  | rejected (message : String)
  deriving DecidableEq, Repr

/-- A call of a method of the manager. -/
structure Walk where
  hook : Hook
  /-- The reversed copy, of a method that goes backward. -/
  copy : Option (List Plugin)
  /-- How many plugins the iterator has given. -/
  given : ℕ
  status : Status
  /-- The plugins whose hook was called. -/
  called : List Plugin
  deriving DecidableEq, Repr

/-! ### The methods -/

/-- The loop up to the next `await`; those without the hook are left out. -/
def toNext (hook : Hook) : List Plugin → ℕ × Option Plugin
  | [] => (0, none)
  | plugin :: plugins =>
      if plugin.has hook then (1, some plugin)
      else ((toNext hook plugins).1 + 1, (toNext hook plugins).2)

namespace Walk

variable (options : PluginLifecycleOptions) (w : Walk) (plugins : List Plugin)

/-- What the `for` loop iterates over. -/
def items : List Plugin := w.copy.getD plugins

/-- The next plugin with the hook is called, or the walk is over. -/
def goOn : Walk :=
  let next := toNext w.hook ((w.items plugins).drop w.given)
  { w with
    given := w.given + next.1
    status := next.2.elim .resolved .awaits
    called := w.called ++ next.2.toList }

/-- A method up to its first `await`. -/
def start (hook : Hook) (copy : Option (List Plugin)) : Walk :=
  goOn { hook := hook, copy := copy, given := 0, status := .resolved, called := [] } plugins

/-- `registerPlugins(server)` -/
def registerPlugins : Walk := start plugins .register none

/-- `initializePlugins(server)` -/
def initializePlugins : Walk := start plugins .init none

/-- `terminatePlugins(server)`, in reverse order. -/
def terminatePlugins : Walk := start plugins .terminate (some plugins.reverse)

/-- `onServerStart(server, http)` -/
def onServerStart : Walk := start plugins .onServerStart none

/-- `onServerStop(server, http)`, in reverse order. -/
def onServerStop : Walk := start plugins .onServerStop (some plugins.reverse)

/-- The method that calls a hook. -/
def method : Hook → Walk
  | .register => registerPlugins plugins
  | .init => initializePlugins plugins
  | .terminate => terminatePlugins plugins
  | .onServerStart => onServerStart plugins
  | .onServerStop => onServerStop plugins

/-- An error of a plugin is dropped or thrown again. -/
def handleError (plugin : Plugin) (phase : Hook) (message : String) : Except String Unit :=
  let errorMessage :=
    "Plugin " ++ plugin.name ++ " failed during " ++ phase.phase ++ ": " ++ message
  if options.continueOnError then .ok () else .error errorMessage

/-- What follows the `await`, when the hook has returned or thrown. -/
def settle (thrown : Option String) : Option Walk :=
  match w.status, thrown with
  | .awaits _, none => some (w.goOn plugins)
  | .awaits plugin, some message =>
      match handleError options plugin w.hook message with
      | .error errorMessage => some { w with status := .rejected errorMessage }
      | .ok () =>
          if w.hook = .register then some { w with status := .rejected message }
          else some (w.goOn plugins)
  | _, _ => none

end Walk

/-! ### The machine -/

/-- The plugins of a server, and the walks over them. -/
structure Server where
  plugins : List Plugin := []
  walks : List Walk := []
  deriving DecidableEq, Repr

/-- What can happen next. -/
inductive Act where
  | register (plugin : Plugin)
  | start (hook : Hook)
  | settle (walk : ℕ) (thrown : Option String)
  deriving DecidableEq, Repr

/-- What an act does; `none`: it cannot happen. -/
def step (options : PluginLifecycleOptions) (s : Server) : Act → Option Server
  | .register plugin => some { s with plugins := s.plugins ++ [plugin] }
  | .start hook => some { s with walks := s.walks ++ [Walk.method s.plugins hook] }
  | .settle n thrown => do
      let w ← s.walks[n]?
      let w ← w.settle options s.plugins thrown
      some { s with walks := s.walks.set n w }

/-- The plugins that are registered in a run. -/
def registered : List Act → List Plugin
  | [] => []
  | .register plugin :: as => plugin :: registered as
  | _ :: as => registered as

/-! ### One method -/

section

variable {hook : Hook} {plugins : List Plugin}

lemma toNext_le : (toNext hook plugins).1 ≤ plugins.length := by
  induction plugins with
  | nil => exact Nat.le_refl 0
  | cons plugin plugins ih =>
      rw [toNext, List.length_cons]
      split
      · exact Nat.le_add_left _ _
      · exact Nat.succ_le_succ ih

/-- Those that the loop has gone over. -/
lemma filter_take_toNext : (plugins.take (toNext hook plugins).1).filter (·.has hook) =
    (toNext hook plugins).2.toList := by
  induction plugins with
  | nil => rfl
  | cons plugin plugins ih =>
      rw [toNext]
      split
      next hhas =>
          rw [List.take_succ_cons, List.filter_cons, if_pos hhas]
          rfl
      next hhas => rw [List.take_succ_cons, List.filter_cons, if_neg hhas, ih]

/-- The loop ends behind the last one. -/
lemma toNext_of_none (h : (toNext hook plugins).2 = none) :
    (toNext hook plugins).1 = plugins.length := by
  induction plugins with
  | nil => rfl
  | cons plugin plugins ih =>
      rw [toNext] at h ⊢
      split at h
      next => cases h
      next hhas => rw [if_neg hhas, ih h, List.length_cons]

end

namespace Walk

/-- What a method has called the hook of: those that have it, among the ones that it has come to. -/
structure Sound (w : Walk) (plugins : List Plugin) : Prop where
  copy_isSome : w.copy.isSome = w.hook.backward
  given_le : w.given ≤ (w.items plugins).length
  called_eq : w.called = ((w.items plugins).take w.given).filter (·.has w.hook)
  /-- A method that has a copy resolves at its end. -/
  given_eq : w.status = .resolved → w.copy.isSome → w.given = (w.items plugins).length

variable {options : PluginLifecycleOptions} {w w' : Walk} {plugins : List Plugin}

lemma items_append_prefix (w : Walk) (plugins added : List Plugin) :
    w.items plugins <+: w.items (plugins ++ added) := by
  rw [items, items]
  cases w.copy with
  | none => exact List.prefix_append _ _
  | some copy => exact List.prefix_rfl

/-- A plugin more is one that the method has not come to. -/
lemma Sound.append (h : w.Sound plugins) (added : List Plugin) : w.Sound (plugins ++ added) := by
  obtain ⟨rest, hrest⟩ := items_append_prefix w plugins added
  refine ⟨h.copy_isSome, ?_, ?_, fun hresolved hcopy => ?_⟩
  · rw [← hrest, List.length_append]
    exact Nat.le_trans h.given_le (Nat.le_add_right _ _)
  · rw [← hrest, List.take_append_of_le_length h.given_le]
    exact h.called_eq
  · obtain ⟨copy, hcopy'⟩ := Option.isSome_iff_exists.mp hcopy
    rw [h.given_eq hresolved hcopy, items, items, hcopy']
    rfl

/-- The loop is at its end when it resolves. -/
lemma given_goOn (hle : w.given ≤ (w.items plugins).length)
    (hresolved : (w.goOn plugins).status = .resolved) :
    (w.goOn plugins).given = (w.items plugins).length := by
  have hnone : (toNext w.hook ((w.items plugins).drop w.given)).2 = none := by
    rw [goOn] at hresolved
    cases hnext : (toNext w.hook ((w.items plugins).drop w.given)).2 with
    | none => rfl
    | some plugin =>
        dsimp only at hresolved
        rw [hnext] at hresolved
        cases hresolved
  rw [goOn]
  dsimp only
  rw [toNext_of_none hnone, List.length_drop, Nat.add_sub_cancel' hle]

lemma Sound.goOn (hcopy : w.copy.isSome = w.hook.backward)
    (hle : w.given ≤ (w.items plugins).length)
    (hcalled : w.called = ((w.items plugins).take w.given).filter (·.has w.hook)) :
    (w.goOn plugins).Sound plugins := by
  refine ⟨hcopy, ?_, ?_, fun hresolved _ => given_goOn hle hresolved⟩
  · have hnext : (toNext w.hook ((w.items plugins).drop w.given)).1 ≤ _ := toNext_le
    rw [List.length_drop] at hnext
    exact Nat.add_le_of_le_sub' hle hnext
  · have hitems : (w.goOn plugins).items plugins = w.items plugins := rfl
    rw [hitems, Walk.goOn, List.take_add, List.filter_append, ← hcalled, filter_take_toNext]

lemma method_eq (plugins : List Plugin) (hook : Hook) : method plugins hook =
    start plugins hook (if hook.backward then some plugins.reverse else none) := by
  cases hook <;> rfl

lemma sound_method (plugins : List Plugin) (hook : Hook) :
    (method plugins hook).Sound plugins := by
  rw [method_eq]
  refine Sound.goOn ?_ (Nat.zero_le _) rfl
  cases hook <;> rfl

/-- What follows an `await`: the loop goes on, or the method rejects. -/
lemma settle_cases {thrown : Option String} (h : w.settle options plugins thrown = some w') :
    (∃ plugin, w.status = .awaits plugin) ∧
      (w' = w.goOn plugins ∨ ∃ message, w' = { w with status := .rejected message }) := by
  cases hstatus : w.status with
  | resolved => simp [settle, hstatus] at h
  | rejected message => simp [settle, hstatus] at h
  | awaits plugin =>
      refine ⟨⟨plugin, rfl⟩, ?_⟩
      cases thrown with
      | none =>
          simp only [settle, hstatus] at h
          exact .inl (Option.some.inj h).symm
      | some message =>
          simp only [settle, hstatus] at h
          split at h
          · exact .inr ⟨_, (Option.some.inj h).symm⟩
          · split at h
            · exact .inr ⟨_, (Option.some.inj h).symm⟩
            · exact .inl (Option.some.inj h).symm

lemma Sound.settle {thrown : Option String} (h : w.Sound plugins)
    (hsettle : w.settle options plugins thrown = some w') : w'.Sound plugins := by
  obtain ⟨-, rfl | ⟨message, rfl⟩⟩ := settle_cases hsettle
  · exact .goOn h.copy_isSome h.given_le h.called_eq
  · exact ⟨h.copy_isSome, h.given_le, h.called_eq, fun hresolved => by cases hresolved⟩

end Walk

/-! ### Any run -/

variable {options : PluginLifecycleOptions} {s s' t : Server} {n : ℕ} {w : Walk}

/-- What any method has called the hook of. -/
def Sound (s : Server) : Prop := ∀ w ∈ s.walks, w.Sound s.plugins

lemma sound_step {a : Act} (hs : Sound s) (h : step options s a = some s') : Sound s' := by
  cases a with
  | register plugin =>
      obtain rfl := Option.some.inj h
      exact fun w hw => (hs w hw).append [plugin]
  | start hook =>
      obtain rfl := Option.some.inj h
      intro w hw
      rcases List.mem_append.mp hw with hw | hw
      · exact hs w hw
      · obtain rfl := List.mem_singleton.mp hw
        exact Walk.sound_method _ _
  | settle n thrown =>
      obtain ⟨w, hw, h⟩ := Option.bind_eq_some_iff.mp h
      obtain ⟨w', hw', h⟩ := Option.bind_eq_some_iff.mp h
      obtain rfl := Option.some.inj h
      intro v hv
      rcases List.mem_or_eq_of_mem_set hv with hv | rfl
      · exact hs v hv
      · exact (hs w (List.mem_of_getElem? hw)).settle hw'

theorem sound_exec {initial : List Plugin} {as : List Act}
    (h : exec (step options) { plugins := initial } as = some s) : Sound s :=
  meets_invariant (P := fun _ _ => True) (fun _ _ _ hs _ => sound_step hs)
    (fun _ hw => by cases hw) (meets_of_forall_initial fun _ _ _ _ _ _ => trivial) h

/-- What a step leaves of the methods: each that has settled, and of the others the copy. -/
lemma walk_step {a : Act} (h : step options s a = some s') (hw : s.walks[n]? = some w) :
    ∃ w', s'.walks[n]? = some w' ∧ w'.hook = w.hook ∧ w'.copy = w.copy ∧
      (w.status = .resolved → w' = w) := by
  cases a with
  | register plugin =>
      obtain rfl := Option.some.inj h
      exact ⟨w, hw, rfl, rfl, fun _ => rfl⟩
  | start hook =>
      obtain rfl := Option.some.inj h
      refine ⟨w, ?_, rfl, rfl, fun _ => rfl⟩
      rw [List.getElem?_append_left (List.getElem?_eq_some_iff.mp hw).1]
      exact hw
  | settle m thrown =>
      obtain ⟨v, hv, h⟩ := Option.bind_eq_some_iff.mp h
      obtain ⟨v', hv', h⟩ := Option.bind_eq_some_iff.mp h
      obtain rfl := Option.some.inj h
      by_cases hm : m = n
      · subst hm
        obtain rfl := Option.some.inj (hv.symm.trans hw)
        obtain ⟨⟨plugin, hawaits⟩, hcases⟩ := Walk.settle_cases hv'
        refine ⟨v', ?_, ?_, ?_, fun hresolved => ?_⟩
        · rw [List.getElem?_set_self (List.getElem?_eq_some_iff.mp hw).1]
        · rcases hcases with rfl | ⟨message, rfl⟩ <;> rfl
        · rcases hcases with rfl | ⟨message, rfl⟩ <;> rfl
        · rw [hawaits] at hresolved
          cases hresolved
      · refine ⟨w, ?_, rfl, rfl, fun _ => rfl⟩
        rw [List.getElem?_set_ne hm]
        exact hw

/-- A method that resolves with a step is at the end of what there is then. -/
lemma given_of_resolves {a : Act} (hs : Sound s) (h : step options s a = some s')
    (hw : s'.walks[n]? = some w) (hresolved : w.status = .resolved)
    (hnew : s.walks[n]? ≠ some w) : w.given = (w.items s'.plugins).length := by
  cases a with
  | register plugin =>
      obtain rfl := Option.some.inj h
      exact absurd hw hnew
  | start hook =>
      obtain rfl := Option.some.inj h
      rcases Nat.lt_or_ge n s.walks.length with hn | hn
      · rw [List.getElem?_append_left hn] at hw
        exact absurd hw hnew
      · rw [List.getElem?_append_right hn] at hw
        obtain rfl := List.mem_singleton.mp (List.mem_of_getElem? hw)
        rw [Walk.method_eq] at hresolved ⊢
        exact Walk.given_goOn (Nat.zero_le _) hresolved
  | settle m thrown =>
      obtain ⟨v, hv, h⟩ := Option.bind_eq_some_iff.mp h
      obtain ⟨v', hv', h⟩ := Option.bind_eq_some_iff.mp h
      obtain rfl := Option.some.inj h
      by_cases hm : m = n
      · subst hm
        rw [List.getElem?_set_self (List.getElem?_eq_some_iff.mp hv).1] at hw
        obtain rfl := Option.some.inj hw
        obtain ⟨-, rfl | ⟨message, rfl⟩⟩ := Walk.settle_cases hv'
        · exact Walk.given_goOn (hs v (List.mem_of_getElem? hv)).given_le hresolved
        · cases hresolved
      · rw [List.getElem?_set_ne hm] at hw
        exact absurd hw hnew

lemma walk_exec {as : List Act} (h : exec (step options) s as = some t)
    (hw : s.walks[n]? = some w) :
    ∃ w', t.walks[n]? = some w' ∧ w'.hook = w.hook ∧ w'.copy = w.copy ∧
      (w.status = .resolved → w' = w) := by
  induction as generalizing s w with
  | nil =>
      obtain rfl := Option.some.inj h
      exact ⟨w, hw, rfl, rfl, fun _ => rfl⟩
  | cons a as ih =>
      rw [exec_cons] at h
      obtain ⟨s', hstep, h⟩ := Option.bind_eq_some_iff.mp h
      obtain ⟨v, hv, hhook, hcopy, hresolved⟩ := walk_step hstep hw
      obtain ⟨w', hw', hhook', hcopy', hresolved'⟩ := ih h hv
      refine ⟨w', hw', hhook'.trans hhook, hcopy'.trans hcopy, fun hstatus => ?_⟩
      have hsame := hresolved hstatus
      rw [← hsame] at hstatus
      exact (hresolved' hstatus).trans hsame

lemma plugins_exec {as : List Act} (h : exec (step options) s as = some t) :
    t.plugins = s.plugins ++ registered as := by
  induction as generalizing s with
  | nil =>
      obtain rfl := Option.some.inj h
      exact (List.append_nil _).symm
  | cons a as ih =>
      rw [exec_cons] at h
      obtain ⟨s', hstep, h⟩ := Option.bind_eq_some_iff.mp h
      rw [ih h]
      cases a with
      | register plugin =>
          obtain rfl := Option.some.inj hstep
          rw [registered, List.append_assoc]
          rfl
      | start hook =>
          obtain rfl := Option.some.inj hstep
          rfl
      | settle n thrown =>
          obtain ⟨v, -, hstep⟩ := Option.bind_eq_some_iff.mp hstep
          obtain ⟨v', -, hstep⟩ := Option.bind_eq_some_iff.mp hstep
          obtain rfl := Option.some.inj hstep
          rfl

/-! ### What is called -/

variable {initial : List Plugin} {as bs cs : List Act}

/-- The last step of a run makes a method resolve. -/
structure Resolves (options : PluginLifecycleOptions) (initial : List Plugin) (as : List Act)
    (n : ℕ) (s : Server) (w : Walk) : Prop where
  exec_eq : exec (step options) { plugins := initial } as = some s
  walk_eq : s.walks[n]? = some w
  status_eq : w.status = .resolved
  last : ∀ s₀ ∈ exec (step options) { plugins := initial } as.dropLast, s₀.walks[n]? ≠ some w

/-- **A method that goes forward has come to all plugins when it resolves**, to those that were
registered while it ran as well, once to each, in their order. -/
theorem called_of_resolves (h : Resolves options initial as n s w)
    (hforward : w.hook.backward = false) : w.called = s.plugins.filter (·.has w.hook) := by
  have hwalk := sound_exec h.exec_eq w (List.mem_of_getElem? h.walk_eq)
  have hgiven : w.given = (w.items s.plugins).length := by
    rcases List.eq_nil_or_concat as with rfl | ⟨bs, a, rfl⟩
    · obtain rfl := Option.some.inj h.exec_eq
      cases h.walk_eq
    · have hexec := h.exec_eq
      rw [List.concat_eq_append, exec_append] at hexec
      obtain ⟨s₀, hbefore, hlast⟩ := Option.bind_eq_some_iff.mp hexec
      rw [exec_cons] at hlast
      obtain ⟨s₁, hstep, hnil⟩ := Option.bind_eq_some_iff.mp hlast
      obtain rfl := Option.some.inj hnil
      exact given_of_resolves (sound_exec hbefore) hstep h.walk_eq h.status_eq
        (h.last s₀ (by rwa [List.concat_eq_append, List.dropLast_concat]))
  have hcopy : w.copy = none := by
    rw [← Option.isNone_iff_eq_none, ← Option.not_isSome, hwalk.copy_isSome, hforward]
    rfl
  have hitems : w.items s.plugins = s.plugins := by rw [Walk.items, hcopy]; rfl
  rw [hwalk.called_eq, hgiven, List.take_length, hitems]

/-- A plugin that another one registers when it is initialised, after which this one fails. -/
theorem called_of_resolves_registered :
    let db : Plugin := { name := "db", hooks := [.init, .terminate] }
    let cache : Plugin := { name := "cache", hooks := [.init] }
    let as : List Act := [.start .init, .register cache, .settle 0 (some "refused"),
      .settle 0 none]
    ∃ s w, Resolves {} [db, { name := "log" }] as 0 s w ∧ w.called = [db, cache] := by
  intro db cache as
  let w : Walk :=
    { hook := .init, copy := none, given := 3, status := .resolved, called := [db, cache] }
  have h : Resolves {} [db, { name := "log" }] as 0
      { plugins := [db, { name := "log" }, cache], walks := [w] } w :=
    ⟨by decide +kernel, rfl, rfl, by decide +kernel⟩
  exact ⟨_, w, h, (called_of_resolves h rfl).trans (by decide +kernel)⟩

/-- **One that goes backward comes to those that there were when it was called.** -/
lemma called_of_start {hook : Hook} (h : exec (step options) { plugins := initial } as = some s)
    (hrun : exec (step options) s (.start hook :: cs) = some t)
    (hw : t.walks[s.walks.length]? = some w) (hresolved : w.status = .resolved)
    (hbackward : hook.backward = true) :
    w.called = s.plugins.reverse.filter (·.has hook) := by
  have hexec : exec (step options) { plugins := initial } (as ++ .start hook :: cs) = some t := by
    rw [exec_append, h]
    exact hrun
  have hwalk := sound_exec hexec w (List.mem_of_getElem? hw)
  rw [exec_cons] at hrun
  have hstart : (s.walks ++ [Walk.method s.plugins hook])[s.walks.length]? =
      some (Walk.method s.plugins hook) := List.getElem?_concat_length
  obtain ⟨w', hw', hhook, hcopy, -⟩ := walk_exec hrun hstart
  obtain rfl := Option.some.inj (hw.symm.trans hw')
  rw [Walk.method_eq] at hhook hcopy
  have hcopy' : w.copy = some s.plugins.reverse := hcopy.trans (if_pos hbackward)
  have hitems : w.items t.plugins = s.plugins.reverse := by rw [Walk.items, hcopy']; rfl
  have hsome : w.copy.isSome := by rw [hcopy']; rfl
  have hhook' : w.hook = hook := hhook
  rw [hwalk.called_eq, hwalk.given_eq hresolved hsome, List.take_length, hitems, hhook']

/-- **What was initialised is terminated in the opposite order exactly if no plugin with both hooks
is registered between the two**; what was started is stopped likewise. -/
theorem terminated_iff {hook : Hook} {s' : Server} {v : Walk}
    (h : Resolves options initial as n s w) (hforward : w.hook.backward = false)
    (hbetween : exec (step options) s bs = some s') (hbackward : hook.backward = true)
    (hrun : exec (step options) s' (.start hook :: cs) = some t)
    (hv : t.walks[s'.walks.length]? = some v) (hresolved : v.status = .resolved) :
    v.called.filter (·.has w.hook) = (w.called.filter (·.has hook)).reverse ↔
      ∀ plugin ∈ registered bs, ¬ (plugin.has w.hook = true ∧ plugin.has hook = true) := by
  have hbefore : exec (step options) { plugins := initial } (as ++ bs) = some s' := by
    rw [exec_append, h.exec_eq]
    exact hbetween
  have hcalled : v.called.filter (·.has w.hook) =
      ((registered bs).filter fun plugin => plugin.has w.hook && plugin.has hook).reverse ++
        (w.called.filter (·.has hook)).reverse := by
    rw [called_of_start hbefore hrun hv hresolved hbackward, plugins_exec hbetween,
      called_of_resolves h hforward, List.reverse_append, List.filter_append, List.filter_append]
    simp only [List.filter_reverse, List.filter_filter, Bool.and_comm]
  rw [hcalled, List.append_left_eq_self, List.reverse_eq_nil_iff, List.filter_eq_nil_iff]
  simp only [Bool.and_eq_true]

/-- A plugin that is registered late is terminated only, and does no harm. -/
theorem terminated_iff_late :
    let db : Plugin := { name := "db", hooks := [.init, .terminate] }
    let cache : Plugin := { name := "cache", hooks := [.init, .terminate] }
    let late : Plugin := { name := "late", hooks := [.terminate] }
    let as : List Act := [.start .init, .settle 0 none, .settle 0 none]
    ∃ s w s' t v, Resolves {} [db, cache] as 0 s w ∧
      exec (step {}) s [.register late] = some s' ∧
      exec (step {}) s' [.start .terminate, .settle 1 none, .settle 1 none, .settle 1 none] =
        some t ∧
      t.walks[1]? = some v ∧ v.called = [late, cache, db] ∧
      v.called.filter (·.has .init) = (w.called.filter (·.has .terminate)).reverse := by
  intro db cache late as
  let w : Walk :=
    { hook := .init, copy := none, given := 2, status := .resolved, called := [db, cache] }
  let v : Walk :=
    { hook := .terminate
      copy := some [late, cache, db]
      given := 3
      status := .resolved
      called := [late, cache, db] }
  have h : Resolves {} [db, cache] as 0 { plugins := [db, cache], walks := [w] } w :=
    ⟨by decide +kernel, rfl, rfl, by decide +kernel⟩
  have hbetween : exec (step {}) { plugins := [db, cache], walks := [w] } [.register late] =
      some { plugins := [db, cache, late], walks := [w] } := by decide +kernel
  have hrun : exec (step {}) { plugins := [db, cache, late], walks := [w] }
      [.start .terminate, .settle 1 none, .settle 1 none, .settle 1 none] =
        some { plugins := [db, cache, late], walks := [w, v] } := by decide +kernel
  exact ⟨_, w, _, _, v, h, hbetween, hrun, rfl, rfl,
    (terminated_iff h rfl hbetween rfl hrun rfl rfl).mpr (by decide +kernel)⟩

end Blaize.Lifecycle
