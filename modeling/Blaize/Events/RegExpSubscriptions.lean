import Blaize.Lib.Js
import Blaize.Lib.LastIndex
import Blaize.Lib.Machine

/-!
Subscriptions of `MemoryEventBus` by regular expressions
(packages/blaize-core/src/events/memory-event-bus.ts).

`createMatcher` keeps the object that it is given, and `emitToSubscribers` tests every type with
it.  An object with the flag `g` or `y` goes on where its last match has ended, whichever event
or subscription that match was for.

* `Bus`, `step`: the objects of the process with the subscriptions that use them;
* `Stateless`: a handler is called exactly for the types that contain a match;
* `FindsAgain`: where a type contains a match, the object still looks at one;
* `stateless_iff_findsAgain`: **this is exactly what keeps a run stateless**;
* `stateless_of_noFlags`: objects without these flags never fail to.
-/

namespace Blaize.Events.ByRegExp

open Machine Js.LastIndex

/-! ### The bus -/

/-- A regular expression with its state. -/
structure RegExpObject where
  expression : Expression
  lastIndex : ℕ := 0

/-- A subscription with the number of its object. -/
structure Subscription where
  id : ℕ
  matcher : ℕ
  deriving DecidableEq, Repr

/-- A type that was tested for a subscription, and whether its handler is called. -/
structure Delivery where
  id : ℕ
  expression : Expression
  type : Text
  called : Bool

/-- The bus with the regular expression objects of the process.  The latest delivery is the
first. -/
structure Bus where
  objects : List RegExpObject := []
  subscriptions : List Subscription := []
  nextId : ℕ := 0
  deliveries : List Delivery := []

/-- `create` makes an object, for a subscriber or for a string pattern; `assign` is any other
use of an object, which may leave it with any `lastIndex`. -/
inductive Action where
  | create (expression : Expression)
  | assign (object lastIndex : ℕ)
  | subscribe (object : ℕ)
  | unsubscribe (id : ℕ)
  | publish (type : Text)

/-- `type.trim() === ''`. -/
def isBlank (type : Text) : Bool := type.all fun c => Js.isWhiteSpace (Char.ofNat c.toNat)

namespace Bus

variable (bus : Bus)

/-- Sets the state of one. -/
def setLastIndex (object lastIndex : ℕ) : Bus :=
  { bus with objects := bus.objects.modify object fun o => { o with lastIndex } }

/-- `subscription.matcher.test(event.type)`. -/
def test (type : Text) (subscription : Subscription) : Bus :=
  match bus.objects[subscription.matcher]? with
  | none => bus
  | some object =>
      let result := object.expression.exec type object.lastIndex
      { bus.setLastIndex subscription.matcher result.2 with
        deliveries :=
          ⟨subscription.id, object.expression, type, result.1.isSome⟩ :: bus.deliveries }

/-- The tests of `emitToSubscribers`, one subscription after the other. -/
def emit (type : Text) (subscriptions : List Subscription) : Bus :=
  subscriptions.foldl (fun bus subscription => bus.test type subscription) bus

/-- What an action does; `none`: it cannot happen. -/
def step : Action → Option Bus
  | .create expression => some { bus with objects := bus.objects ++ [{ expression }] }
  | .assign object lastIndex => some (bus.setLastIndex object lastIndex)
  | .subscribe object =>
      if object < bus.objects.length then
        some { bus with
          subscriptions := bus.subscriptions ++ [⟨bus.nextId, object⟩]
          nextId := bus.nextId + 1 }
      else
        none
  | .unsubscribe id =>
      some { bus with subscriptions := bus.subscriptions.filter fun s => s.id ≠ id }
  | .publish type => if isBlank type then none else some (bus.emit type bus.subscriptions)

/-- **A handler is called exactly for the types that contain a match of its expression.** -/
def Stateless : Prop :=
  ∀ d ∈ bus.deliveries, d.called = true ↔ d.expression.Contains d.type

/-- If the type contains a match, then one begins where the object looks: from its `lastIndex`
on if it has the flag `g`, and just there if it has the flag `y`. -/
def Finds (type : Text) (subscription : Subscription) : Prop :=
  ∀ object ∈ bus.objects[subscription.matcher]?, object.expression.Contains type →
    object.expression.FoundFrom type object.lastIndex

/-- The same at each test of an emission. -/
def FindsAll (type : Text) : List Subscription → Bus → Prop
  | [], _ => True
  | s :: subscriptions, bus => bus.Finds type s ∧ FindsAll type subscriptions (bus.test type s)

/-- **A published type is found by every object that it contains a match of.** -/
def FindsAgain : Action → Prop
  | .publish type => isBlank type = false → FindsAll type bus.subscriptions bus
  | _ => True

variable {bus}

/-! ### One emission -/

lemma stateless_test_iff {type : Text} {subscription : Subscription} :
    (bus.test type subscription).Stateless ↔ bus.Stateless ∧ bus.Finds type subscription := by
  rw [test, Finds]
  cases hobject : bus.objects[subscription.matcher]? with
  | none => exact (and_iff_left nofun).symm
  | some object =>
      have hcalled : (object.expression.exec type object.lastIndex).1.isSome = true ↔
          object.expression.FoundFrom type object.lastIndex := Expression.exec_isSome_iff
      have hfinds : (∀ o ∈ some object, o.expression.Contains type →
          o.expression.FoundFrom type o.lastIndex) ↔
            (object.expression.FoundFrom type object.lastIndex ↔
              object.expression.Contains type) := by
        constructor
        · exact fun h => ⟨Expression.Contains.of_foundFrom, h object rfl⟩
        · rintro h o ⟨⟩
          exact h.mpr
      rw [hfinds, ← hcalled, and_comm]
      exact List.forall_mem_cons

lemma stateless_emit_iff {type : Text} {subscriptions : List Subscription} :
    (bus.emit type subscriptions).Stateless ↔
      bus.Stateless ∧ FindsAll type subscriptions bus := by
  induction subscriptions generalizing bus with
  | nil => exact (and_iff_left trivial).symm
  | cons s subscriptions ih =>
      rw [emit, List.foldl_cons]
      exact ih.trans (by rw [stateless_test_iff, and_assoc, FindsAll])

/-- A step keeps the bus stateless exactly if the objects find again. -/
lemma step_stateless_iff {bus' : Bus} {a : Action} (h : bus.Stateless)
    (hstep : bus.step a = some bus') : bus'.Stateless ↔ bus.FindsAgain a := by
  cases a with
  | create expression =>
      obtain rfl := Option.some.inj hstep
      exact iff_of_true h trivial
  | assign object lastIndex =>
      obtain rfl := Option.some.inj hstep
      exact iff_of_true h trivial
  | subscribe object =>
      rw [step] at hstep
      split at hstep
      next =>
          obtain rfl := Option.some.inj hstep
          exact iff_of_true h trivial
      next => cases hstep
  | unsubscribe id =>
      obtain rfl := Option.some.inj hstep
      exact iff_of_true h trivial
  | publish type =>
      rw [step] at hstep
      split at hstep
      next => cases hstep
      next hblank =>
          obtain rfl := Option.some.inj hstep
          rw [stateless_emit_iff, and_iff_right h, FindsAgain]
          exact ⟨fun hfinds _ => hfinds, fun hfinds => hfinds (by simpa using hblank)⟩

/-- **Subscriptions by regular expressions are stateless exactly as long as every published type
is found again** by each object that it contains a match of. -/
theorem stateless_iff_findsAgain (as : List Action) :
    (∀ bs, bs <+: as → ∀ bus, exec step {} bs = some bus → bus.Stateless) ↔
      Meets step FindsAgain {} as := by
  refine forall_prefix_iff_meets (J := fun _ => True) (fun _ _ _ _ _ => trivial)
    (fun bus a bus' _ hI hstep => step_stateless_iff hI hstep) ?_ trivial
    (fun d hd => (by cases hd)) as
  intro bus a hnone
  cases a with
  | publish type =>
      intro hblank
      rw [step, if_neg (by simp [hblank])] at hnone
      cases hnone
  | _ => trivial

/-! ### Objects without the flags -/

/-- No object of the process remembers a position. -/
def NoFlags (bus : Bus) : Prop :=
  ∀ o ∈ bus.objects, (o.expression.global || o.expression.sticky) = false

lemma NoFlags.setLastIndex (h : bus.NoFlags) (object lastIndex : ℕ) :
    (bus.setLastIndex object lastIndex).NoFlags := by
  intro o ho
  obtain ⟨i, hi⟩ := List.mem_iff_getElem?.mp ho
  rw [Bus.setLastIndex, List.getElem?_modify] at hi
  obtain ⟨o', ho', rfl⟩ := Option.map_eq_some_iff.mp hi
  have hflags := h o' (List.mem_iff_getElem?.mpr ⟨i, ho'⟩)
  split <;> exact hflags

lemma NoFlags.test (h : bus.NoFlags) (type : Text) (s : Subscription) :
    (bus.test type s).NoFlags := by
  rw [Bus.test]
  split
  next => exact h
  next => exact h.setLastIndex _ _

lemma NoFlags.emit (h : bus.NoFlags) (type : Text) (subscriptions : List Subscription) :
    (bus.emit type subscriptions).NoFlags := by
  induction subscriptions generalizing bus with
  | nil => exact h
  | cons s subscriptions ih => exact ih (h.test type s)

lemma NoFlags.findsAll (h : bus.NoFlags) (type : Text) (subscriptions : List Subscription) :
    FindsAll type subscriptions bus := by
  induction subscriptions generalizing bus with
  | nil => trivial
  | cons s subscriptions ih =>
      refine ⟨fun object hobject hcontains => ?_, ih (h.test type s)⟩
      have hflags := h object (List.mem_iff_getElem?.mpr ⟨s.matcher, hobject⟩)
      exact (Expression.foundFrom_iff_contains hflags).mpr hcontains

/-- An action brings no object with one of the flags. -/
def Plain : Action → Prop
  | .create expression => (expression.global || expression.sticky) = false
  | _ => True

lemma NoFlags.step {a : Action} {bus' : Bus} (h : bus.NoFlags) (ha : Plain a)
    (hstep : bus.step a = some bus') : bus'.NoFlags := by
  cases a with
  | create expression =>
      obtain rfl := Option.some.inj hstep
      intro o ho
      rcases List.mem_append.mp ho with ho | ho
      · exact h o ho
      · obtain rfl := List.mem_singleton.mp ho
        exact ha
  | assign object lastIndex =>
      obtain rfl := Option.some.inj hstep
      exact h.setLastIndex object lastIndex
  | subscribe object =>
      rw [Bus.step] at hstep
      split at hstep
      next =>
          obtain rfl := Option.some.inj hstep
          exact h
      next => cases hstep
  | unsubscribe id =>
      obtain rfl := Option.some.inj hstep
      exact h
  | publish type =>
      rw [Bus.step] at hstep
      split at hstep
      next => cases hstep
      next =>
          obtain rfl := Option.some.inj hstep
          exact h.emit type bus.subscriptions

/-- **Without the flags every run is stateless.** -/
theorem stateless_of_noFlags (as : List Action) (h : ∀ a ∈ as, Plain a) (bus : Bus)
    (hrun : exec step {} as = some bus) : bus.Stateless := by
  have hplain : Meets step (fun _ a => True ∧ Plain a) {} as := (meets_true _ as).and h
  have hfinds : Meets step FindsAgain {} as := by
    refine Meets.mono (I := NoFlags) (fun bus a bus' hI ha hstep => hI.step ha.2 hstep) ?_ nofun
      hplain
    intro bus a hI _
    cases a with
    | publish type => exact fun _ => hI.findsAll type bus.subscriptions
    | _ => trivial
  exact (stateless_iff_findsAgain as).mpr hfinds as (List.prefix_refl _) bus hrun

/-! ### An object that remembers -/

/-- `/a/g`. -/
def letterA : Expression where
  matcher text i := if text[i]? = some 97 then some (i + 1) else none
  global := true

/-- The second of two equal events is not delivered to a subscriber with the flag `g`. -/
theorem not_stateless :
    ¬ ∀ as bus, exec step {} as = some bus → bus.Stateless := by
  intro h
  have hstateless := h [.create letterA, .subscribe 0, .publish [97], .publish [97]] _ rfl
  have hmissed := hstateless ⟨0, letterA, [97], false⟩ List.mem_cons_self
  exact absurd (hmissed.mpr ⟨0, Nat.zero_le _, rfl⟩) (by decide)

end Bus

end Blaize.Events.ByRegExp
