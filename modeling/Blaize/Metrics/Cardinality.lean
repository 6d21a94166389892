import Blaize.Metrics.Collector

/-!
Does the number of metrics stay within its limit?

* `Within`: there is room wherever a call stores a name that is new to its map;
* `step_iff_within`: a call keeps to the limit exactly if it is within it;
* `getCardinality_le_iff_within`: **a run keeps to the limit exactly if all of its calls do**.
-/

namespace Blaize.Metrics

open Machine

namespace MetricsCollector

variable {options : MetricsOptions} {s : MetricsCollector}

/-! ### The condition -/

/-- A name that another map has already is admitted without a look at the limit. -/
def Room (options : MetricsOptions) (s : MetricsCollector) (known : Bool) (name : String) : Prop :=
  known = true ∨ s.hasMetric name = false ∨ s.getCardinality < options.maxCardinality

/-- The limit is not looked at when a timer stops. -/
def StopRoom (options : MetricsOptions) (s : MetricsCollector) : Option (Option StartedTimer) → Prop
  | some (some timer) =>
      s.timers.has timer.name = true ∨ s.getCardinality < options.maxCardinality
  | _ => True

/-- There is room wherever a call stores a name that is new to its map. -/
def Within (options : MetricsOptions) (s : MetricsCollector) : Call → Prop
  | .increment name _ => Room options s (s.counters.has name) name
  | .gauge name _ => Room options s (s.gauges.has name) name
  | .histogram name _ => Room options s (s.histograms.has name) name
  | .stopTimer number _ => StopRoom options s s.stops[number]?
  | _ => True

instance (known : Bool) (name : String) : Decidable (Room options s known name) :=
  inferInstanceAs (Decidable (_ ∨ _ ∨ _))

instance : ∀ stop, Decidable (StopRoom options s stop)
  | some (some _) => inferInstanceAs (Decidable (_ ∨ _))
  | some none | none => inferInstanceAs (Decidable True)

instance : ∀ call, Decidable (Within options s call)
  | .increment _ _ | .gauge _ _ | .histogram _ _ => inferInstanceAs (Decidable (Room _ _ _ _))
  | .stopTimer _ _ => inferInstanceAs (Decidable (StopRoom _ _ _))
  | .startTimer _ _ | .startHttpRequest | .recordHttpRequest _ _ _ _ | .reset _ =>
      inferInstanceAs (Decidable True)

/-! ### The calls -/

/-- What comes of a method that asks for admission. -/
lemma settled_canAddMetric (name metricType : String) (s' : MetricsCollector) :
    s.settled (do if ← s.canAddMetric options name metricType then return s' else return s) =
      if s.hasMetric name = true ∨ s.getCardinality < options.maxCardinality then s' else s := by
  unfold canAddMetric
  by_cases hname : s.hasMetric name = true
  · rw [if_pos hname, if_pos (.inl hname)]
    rfl
  · rw [if_neg hname]
    by_cases hfull : options.maxCardinality ≤ s.getCardinality
    · rw [if_pos hfull, if_neg (by simp [hname, hfull])]
      cases options.onCardinalityLimit <;> rfl
    · rw [if_neg hfull, if_pos (.inr (not_le.mp hfull))]
      rfl

/-- An admitted name adds a metric if it is new to its map. -/
lemma admitted_iff {known : Bool} {name : String} {s' : MetricsCollector}
    (hknown : known = true → s.hasMetric name = true)
    (hs : s.getCardinality ≤ options.maxCardinality)
    (hs' : s'.getCardinality = if known then s.getCardinality else s.getCardinality + 1) :
    (if s.hasMetric name = true ∨ s.getCardinality < options.maxCardinality then s'
      else s).getCardinality ≤ options.maxCardinality ↔ Room options s known name := by
  unfold Room
  cases hname : s.hasMetric name with
  | true =>
      rw [if_pos (.inl rfl), hs']
      cases known with
      | true => simpa using hs
      | false => simp [Nat.succ_le_iff]
  | false =>
      have hfalse : known = false := by
        rw [Bool.eq_false_iff]
        intro h
        rw [hknown h] at hname
        cases hname
      subst hfalse
      split
      next hroom =>
        rw [hs']
        simpa [Nat.succ_le_iff] using hroom
      next => simpa using hs

lemma size_record (data : OrdMap String HistogramData) (name : String) (value : ℚ) :
    (record options data name value).size = if data.has name then data.size else data.size + 1 :=
  data.size_set name _

/-- The start of a timer stores nothing. -/
lemma settled_startTimer (name : String) (now : ℤ) :
    (s.settled (s.startTimer options name now)).getCardinality = s.getCardinality := by
  unfold startTimer
  cases s.canAddMetric options name "timer" with
  | error e => rfl
  | ok admitted => cases admitted <;> rfl

/-- **A call keeps to the limit exactly if it is within it.** -/
lemma step_iff_within {s' : MetricsCollector} {call : Call}
    (hs : s.getCardinality ≤ options.maxCardinality) (h : step options s call = some s') :
    s'.getCardinality ≤ options.maxCardinality ↔ Within options s call := by
  cases call with
  | increment name value =>
      obtain rfl := Option.some.inj h
      rw [increment, settled_canAddMetric]
      refine admitted_iff (fun hknown => ?_) hs ?_
      · rw [hasMetric, hknown]
        rfl
      · rw [getCardinality, OrdMap.size_set]
        dsimp only
        split
        · rfl
        · rw [getCardinality]
          omega
  | gauge name value =>
      obtain rfl := Option.some.inj h
      rw [gauge, settled_canAddMetric]
      refine admitted_iff (fun hknown => ?_) hs ?_
      · rw [hasMetric, hknown, Bool.or_true]
        rfl
      · rw [getCardinality, OrdMap.size_set]
        dsimp only
        split
        · rfl
        · rw [getCardinality]
          omega
  | histogram name value =>
      obtain rfl := Option.some.inj h
      rw [histogram, settled_canAddMetric]
      refine admitted_iff (fun hknown => ?_) hs ?_
      · rw [hasMetric, hknown, Bool.or_true]
        rfl
      · rw [getCardinality, size_record]
        dsimp only
        split
        · rfl
        · rw [getCardinality]
          omega
  | startTimer name now =>
      obtain rfl := Option.some.inj h
      rw [settled_startTimer]
      exact iff_of_true hs trivial
  | stopTimer number now =>
      obtain ⟨stop, hstop, rfl⟩ := Option.map_eq_some_iff.mp h
      rw [MetricsCollector.Within, hstop]
      cases stop with
      | none => exact iff_of_true hs trivial
      | some timer =>
          rw [stopTimer, getCardinality, size_record, StopRoom]
          dsimp only
          split
          next hknown => exact iff_of_true hs (.inl hknown)
          next hnew =>
            rw [getCardinality] at hs ⊢
            constructor
            · exact fun hle => .inr (by omega)
            · rintro (hknown | hroom)
              · exact absurd hknown hnew
              · omega
  | startHttpRequest | recordHttpRequest method path statusCode duration =>
      obtain rfl := Option.some.inj h
      exact iff_of_true hs trivial
  | reset now =>
      obtain rfl := Option.some.inj h
      exact iff_of_true (Nat.zero_le _) trivial

end MetricsCollector

open MetricsCollector

/-- **A run keeps to the limit in all of its states exactly if all of its calls are within it.** -/
theorem getCardinality_le_iff_within (options : MetricsOptions) (calls : List Call) :
    (∀ done, done <+: calls → ∀ s, exec (step options) {} done = some s →
      s.getCardinality ≤ options.maxCardinality) ↔
        Meets (step options) (Within options) {} calls := by
  refine @forall_prefix_iff_meets _ _ (step options) (Within options)
    (fun s => s.getCardinality ≤ options.maxCardinality) (fun _ => True)
    (fun _ _ _ _ _ => trivial) (fun _ _ _ _ hs h => step_iff_within hs h) ?_ {} trivial
    (Nat.zero_le _) calls
  intro s call h
  cases call with
  | stopTimer number now =>
      rw [MetricsCollector.Within, Option.map_eq_none_iff.mp h]
      trivial
  | _ => cases h

/-- One name as a counter and as a gauge. -/
theorem not_getCardinality_le :
    ¬ ∀ (options : MetricsOptions) (calls : List Call) (s : MetricsCollector),
      exec (step options) {} calls = some s → s.getCardinality ≤ options.maxCardinality := by
  intro h
  have hle := h { maxCardinality := 1 } [.increment "orders" 1, .gauge "orders" 5] _ rfl
  revert hle
  decide

end Blaize.Metrics
