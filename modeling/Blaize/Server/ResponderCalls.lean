import Blaize.Server.Context

/-!
One response per request (`json`, `text`, `html`, `redirect` and `stream` in
`packages/blaize-core/src/context/create.ts`).

* `CoreStep`, `exec`: the calls of responders and the events of readables, in any order;
* `Prelude`, `Starting`: what a responder does before it sends, and how it sends;
* `starting_coreRespond`: **a call on a response that is not sent starts sending, or leaves it so**;
* `Started.exec`: a response that has started stays so;
* `OneResponse`: a call behind one that has started sending throws, and changes nothing;
* `oneResponse_of_orderly`: **so if no responder is called while a readable is piped**;
* `oneResponse_iff_orderly`: and only then.
-/

namespace Blaize.Server

variable {V : Type} (cfg : Config V)

/-! ### Calls and events -/

/-- A call of a responder of the core: `json` is not replaced. -/
def coreRespond : Responder V → Run V Unit
  | .json body status => jsonResponder cfg (.json body) status
  | .text body status => textResponder cfg body status
  | .html body status => htmlResponder cfg body status
  | .redirect url status => redirectResponder cfg url status
  | .stream options => streamResponder cfg options

/-- What can happen next. -/
inductive CoreStep (V : Type) where
  | call (responder : Responder V)
  | event (event : ℕ × StreamEvent)

/-- What a step does. -/
def coreStep (w : World V) : CoreStep V → World V
  | .call responder => (coreRespond cfg responder w).2
  | .event event => w.deliver event

/-- The world after some steps. -/
def exec (w : World V) (steps : List (CoreStep V)) : World V := steps.foldl (coreStep cfg) w

/-! ### Responders -/

/-- Neither sent nor piped meanwhile. -/
def SameState (w w' : World V) : Prop := w'.sent = w.sent ∧ w'.piped = w.piped

/-- The errors of Node's response and of `JSON.stringify` have a property. -/
structure Foreign (P : Thrown V → Prop) : Prop where
  header : P (.error "Cannot set headers after they are sent to the client")
  stringify : ∀ body message, cfg.stringifyError body = some message → P (.error message)

lemma foreign_true : Foreign cfg fun _ => True := ⟨trivial, fun _ _ _ => trivial⟩

/-- The code does not send, and its errors have a property. -/
def Prelude (P : Thrown V → Prop) (x : Run V Unit) : Prop :=
  ∀ w, SameState w (x w).2 ∧ ∀ e, (x w).1 = .error e → P e

/-- What is left of a world: it is sent or piped into, or there was an error with a property and
it is neither. -/
def Outcome (P : Thrown V → Prop) (w : World V) : Except (Thrown V) Unit × World V → Prop
  | (.ok _, w') => w'.sent = true ∨ w'.piped = w.piped + 1
  | (.error e, w') => SameState w w' ∧ P e

/-- The code sends or pipes, or throws. -/
def Starting (P : Thrown V → Prop) (x : Run V Unit) : Prop := ∀ w, Outcome P w (x w)

variable {cfg} {P : Thrown V → Prop} {x y : Run V Unit}

lemma Prelude.bind (hx : Prelude P x) (hy : Prelude P y) : Prelude P (x >>= fun _ => y) := by
  intro w
  obtain ⟨hsame, herror⟩ := hx w
  cases h : x w with
  | mk result w' =>
      rw [h] at hsame herror
      cases result with
      | ok =>
          rw [Effect.bind_of_ok h]
          obtain ⟨hsame', herror'⟩ := hy w'
          exact ⟨⟨hsame'.1.trans hsame.1, hsame'.2.trans hsame.2⟩, herror'⟩
      | error e =>
          rw [Effect.bind_of_error h]
          exact ⟨hsame, herror⟩

lemma Starting.bind (hx : Prelude P x) (hy : Starting P y) : Starting P (x >>= fun _ => y) := by
  intro w
  obtain ⟨hsame, herror⟩ := hx w
  cases h : x w with
  | mk result w' =>
      rw [h] at hsame herror
      cases result with
      | ok =>
          have hstart := hy w'
          rw [Effect.bind_of_ok h]
          rcases hyw : y w' with ⟨_ | e, w''⟩
          · rw [hyw] at hstart
            exact ⟨⟨hstart.1.1.trans hsame.1, hstart.1.2.trans hsame.2⟩, hstart.2⟩
          · rw [hyw] at hstart
            exact hstart.imp_right fun hpiped => hpiped.trans (congrArg (· + 1) hsame.2)
      | error e =>
          rw [Effect.bind_of_error h]
          exact ⟨hsame, herror e rfl⟩

lemma prelude_pure : Prelude P (pure () : Run V Unit) := fun _ => ⟨⟨rfl, rfl⟩, nofun⟩

lemma prelude_setStatus (status : Option ℕ) : Prelude P (setStatus status : Run V Unit) :=
  fun _ => ⟨⟨rfl, rfl⟩, nofun⟩

section

variable (hP : Foreign cfg P)
include hP

lemma prelude_setHeader (name value : String) : Prelude P (setHeader name value : Run V Unit) := by
  intro w
  rw [setHeader, Res.setHeader]
  by_cases hsent : w.res.headersSent
  · rw [if_pos hsent]
    refine ⟨⟨rfl, rfl⟩, fun e he => ?_⟩
    obtain rfl := Except.error.inj he
    exact hP.header
  · rw [if_neg hsent]
    exact ⟨⟨rfl, rfl⟩, by rintro _ ⟨⟩⟩

lemma prelude_setHeaders (headers : List (String × String)) :
    Prelude P (setHeaders headers : Run V Unit) := by
  induction headers with
  | nil => exact prelude_pure
  | cons header headers ih => exact (prelude_setHeader hP header.1 header.2).bind ih

lemma prelude_addCorrelationHeader : Prelude P (addCorrelationHeader cfg) := by
  intro w
  rw [addCorrelationHeader, Effect.bind_apply, Effect.get_apply]
  dsimp only
  split
  · exact prelude_setHeader hP cfg.headerName w.correlationId w
  · exact prelude_pure w

/-- A payload that cannot be written has a value that cannot. -/
lemma prelude_stringify (payload : Payload V) : Prelude P (stringify cfg payload) := by
  intro w
  rw [stringify]
  cases hmessage : payload.stringifyError cfg with
  | some message =>
      refine ⟨⟨rfl, rfl⟩, fun e he => ?_⟩
      obtain rfl := Except.error.inj he
      cases payload with
      | json body => exact hP.stringify body message hmessage
      | error body =>
          rw [Payload.stringifyError] at hmessage
          cases hdetails : body.details with
          | custom details =>
              rw [hdetails] at hmessage
              exact hP.stringify details message hmessage
          | _ =>
              rw [hdetails] at hmessage
              cases hmessage
      | _ => cases hmessage
  | none => exact prelude_pure w

lemma prelude_setContentType (contentType : Option String) :
    Prelude P (setContentType contentType : Run V Unit) := by
  cases contentType with
  | none => exact prelude_pure
  | some contentType =>
      rw [setContentType]
      split
      · exact prelude_setHeader hP "Content-Type" contentType
      · exact prelude_pure

/-- **A call on a response that is not sent starts sending, or leaves it so.** -/
lemma starting_coreRespond (responder : Responder V) {w : World V} (hsent : w.sent = false) :
    Outcome P w (coreRespond cfg responder w) := by
  have hsend (payload : Option (Payload V)) : Starting P (send payload) := fun _ => .inl rfl
  have hcontent (contentType : String) (payload : Payload V) (status : Option ℕ) :
      Outcome P w (contentResponder cfg contentType payload status w) := by
    have h := Starting.bind (prelude_setStatus status) (Starting.bind
      (prelude_addCorrelationHeader hP) (Starting.bind
        (prelude_setHeader hP "Content-Type" contentType) (Starting.bind
          (prelude_stringify hP payload) (hsend (some payload))))) w
    rw [contentResponder, Effect.bind_apply, Effect.get_apply]
    dsimp only
    rw [if_neg (by simp [hsent])]
    exact h
  cases responder with
  | json body status => exact hcontent _ _ _
  | text body status => exact hcontent _ _ _
  | html body status => exact hcontent _ _ _
  | redirect url status =>
      have h := Starting.bind (prelude_addCorrelationHeader hP) (Starting.bind
        (prelude_setStatus (some status)) (Starting.bind (prelude_setHeader hP "Location" url)
          (hsend none))) w
      rw [coreRespond, redirectResponder, Effect.bind_apply, Effect.get_apply]
      dsimp only
      rw [if_neg (by simp [hsent])]
      exact h
  | stream options =>
      have hpipe : Starting P
          (Effect.modify fun w : World V => { w with piped := w.piped + 1 }) := fun _ => .inr rfl
      have h := Starting.bind (prelude_setStatus options.status) (Starting.bind
        (prelude_addCorrelationHeader hP) (Starting.bind
          (prelude_setContentType hP options.contentType) (Starting.bind
            (prelude_setHeaders hP options.headers) hpipe))) w
      rw [coreRespond, streamResponder, Effect.bind_apply, Effect.get_apply]
      dsimp only
      rw [if_neg (by simp [hsent])]
      exact h

end

/-- A call on a response that is sent throws, and changes nothing. -/
lemma coreRespond_of_sent (responder : Responder V) {w : World V} (hsent : w.sent = true) :
    coreRespond cfg responder w = (.error responseSent, w) := by
  have hcontent (contentType : String) (payload : Payload V) (status : Option ℕ) :
      contentResponder cfg contentType payload status w = (.error responseSent, w) := by
    rw [contentResponder, Effect.bind_apply, Effect.get_apply]
    dsimp only
    rw [if_pos hsent]
    rfl
  cases responder with
  | json body status => exact hcontent _ _ _
  | text body status => exact hcontent _ _ _
  | html body status => exact hcontent _ _ _
  | redirect url status =>
      rw [coreRespond, redirectResponder, Effect.bind_apply, Effect.get_apply]
      dsimp only
      rw [if_pos hsent]
      rfl
  | stream options =>
      rw [coreRespond, streamResponder, Effect.bind_apply, Effect.get_apply]
      dsimp only
      rw [if_pos hsent]
      rfl

/-! ### Runs -/

/-- A responder has started sending. -/
def Started (w : World V) : Prop := w.sent = true ∨ w.piped ≠ 0

lemma Outcome.started {w w' : World V} {a : Unit} (h : Outcome P w (.ok a, w')) : Started w' := by
  rcases h with hsent | hpiped
  · exact .inl hsent
  · exact .inr (hpiped ▸ Nat.succ_ne_zero w.piped)

/-- No event pipes a readable. -/
lemma piped_deliver (w : World V) (event : ℕ × StreamEvent) :
    (w.deliver event).piped = w.piped := by
  have hreceive : (w.receive event.2).piped = w.piped := by
    unfold World.receive
    split
    · rfl
    · rfl
    · split <;> rfl
  unfold World.deliver
  split
  · exact hreceive
  · rfl

lemma Started.deliver {w : World V} (h : Started w) (event : ℕ × StreamEvent) :
    Started (w.deliver event) := by
  by_cases hlt : event.1 < w.piped
  · refine .inr ?_
    rw [piped_deliver]
    exact Nat.ne_zero_of_lt hlt
  · rwa [World.deliver, if_neg hlt]

lemma Started.coreRespond {w : World V} (h : Started w) (responder : Responder V) :
    Started (coreRespond cfg responder w).2 := by
  cases hsent : w.sent with
  | true =>
      rw [coreRespond_of_sent responder hsent]
      exact h
  | false =>
      have hout := starting_coreRespond (foreign_true cfg) responder hsent
      have hpiped : w.piped ≠ 0 := h.resolve_left (by simp [hsent])
      rcases hrun : Blaize.Server.coreRespond cfg responder w with ⟨_ | e, w'⟩
      · rw [hrun] at hout
        exact .inr (hout.1.2 ▸ hpiped)
      · rw [hrun] at hout
        exact Outcome.started hout

/-- **What has started stays so.** -/
lemma Started.exec {w : World V} (h : Started w) (steps : List (CoreStep V)) :
    Started (exec cfg w steps) := by
  induction steps generalizing w with
  | nil => exact h
  | cons step steps ih =>
      refine ih ?_
      cases step with
      | call responder => exact h.coreRespond responder
      | event event => exact h.deliver event

/-- A call behind one that has started sending throws, and changes nothing: at most one call
starts. -/
def OneResponse (cfg : Config V) (w : World V) (steps : List (CoreStep V)) : Prop :=
  ∀ before first middle later rest,
    steps = before ++ .call first :: (middle ++ .call later :: rest) →
      (coreRespond cfg first (exec cfg w before)).1 = .ok () →
        coreRespond cfg later (exec cfg w (before ++ .call first :: middle)) =
          (.error responseSent, exec cfg w (before ++ .call first :: middle))

/-- A readable is piped into the response that has neither ended nor failed. -/
def Pending (w : World V) : Prop := w.piped ≠ 0 ∧ w.sent = false

/-- No responder is called meanwhile. -/
def Orderly (cfg : Config V) (w : World V) (steps : List (CoreStep V)) : Prop :=
  ∀ before responder rest, steps = before ++ .call responder :: rest →
    ¬ Pending (exec cfg w before)

lemma exec_append (w : World V) (before after : List (CoreStep V)) :
    exec cfg w (before ++ after) = exec cfg (exec cfg w before) after := List.foldl_append

/-- A call that returns has started sending. -/
lemma started_of_ok {w : World V} {responder : Responder V}
    (h : (coreRespond cfg responder w).1 = .ok ()) : Started (coreRespond cfg responder w).2 := by
  cases hsent : w.sent with
  | true =>
      rw [coreRespond_of_sent responder hsent] at h
      cases h
  | false =>
      have hout := starting_coreRespond (foreign_true cfg) responder hsent
      rcases hrun : coreRespond cfg responder w with ⟨_ | e, w'⟩
      · rw [hrun] at h
        cases h
      · rw [hrun] at hout
        exact Outcome.started hout

/-- **If no responder is called while a readable is pending, there is one response.** -/
theorem oneResponse_of_orderly {w : World V} {steps : List (CoreStep V)}
    (h : Orderly cfg w steps) : OneResponse cfg w steps := by
  intro before first middle later rest hsteps hok
  have hstarted : Started (exec cfg w (before ++ .call first :: middle)) := by
    rw [exec_append]
    exact (started_of_ok hok).exec middle
  have hpending := h (before ++ .call first :: middle) later rest (by simp [hsteps])
  refine coreRespond_of_sent later (hstarted.elim id fun hpiped => ?_)
  by_contra hsent
  exact hpending ⟨hpiped, by simpa using hsent⟩

/-- A readable that is piped was piped by a call that returned. -/
lemma exists_call_of_piped {w : World V} (hpiped : w.piped = 0) {steps : List (CoreStep V)}
    (h : (exec cfg w steps).piped ≠ 0) :
    ∃ before responder rest, steps = before ++ .call responder :: rest ∧
      (coreRespond cfg responder (exec cfg w before)).1 = .ok () := by
  induction steps using List.reverseRecOn with
  | nil => exact absurd hpiped h
  | append_singleton steps step ih =>
      have hearlier (h : (exec cfg w steps).piped ≠ 0) :
          ∃ before responder rest, steps ++ [step] = before ++ .call responder :: rest ∧
            (coreRespond cfg responder (exec cfg w before)).1 = .ok () := by
        obtain ⟨before, responder, rest, rfl, hok⟩ := ih h
        exact ⟨before, responder, rest ++ [step], by simp, hok⟩
      rw [exec_append] at h
      cases step with
      | event event =>
          refine hearlier ?_
          rw [← piped_deliver _ event]
          exact h
      | call responder =>
          by_cases hzero : (exec cfg w steps).piped = 0
          · refine ⟨steps, responder, [], rfl, ?_⟩
            have hlast : (coreRespond cfg responder (exec cfg w steps)).2.piped ≠ 0 := h
            cases hsent : (exec cfg w steps).sent with
            | true =>
                rw [coreRespond_of_sent responder hsent] at hlast
                exact absurd hzero hlast
            | false =>
                have hout := starting_coreRespond (foreign_true cfg) responder hsent
                rcases hrun : coreRespond cfg responder (exec cfg w steps) with ⟨_ | e, w'⟩
                · rw [hrun] at hout hlast
                  exact absurd (hout.1.2.trans hzero) hlast
                · rfl
          · exact hearlier hzero

/-- The response of a request on which no responder was called. -/
def coreWorld (request : Request V) (correlationId : String) : World V :=
  { request, correlationId }

/-- **There is one response if and only if no responder is called while a readable is pending.**
The second half supposes that `JSON.stringify` does not itself throw a `ResponseSentError`. -/
theorem oneResponse_iff_orderly (cfg : Config V) (request : Request V) (correlationId : String)
    (steps : List (CoreStep V)) :
    (Orderly cfg (coreWorld request correlationId) steps →
      OneResponse cfg (coreWorld request correlationId) steps) ∧
      ((∀ body, cfg.stringifyError body ≠ some "❌ Response has already been sent") →
        OneResponse cfg (coreWorld request correlationId) steps →
          Orderly cfg (coreWorld request correlationId) steps) := by
  refine ⟨oneResponse_of_orderly, fun hcfg hone before later rest hsteps hpending => ?_⟩
  obtain ⟨hpiped, hsent⟩ := hpending
  have hforeign : Foreign cfg (· ≠ responseSent) := by
    refine ⟨by simp [responseSent], fun body message hmessage heq => hcfg body ?_⟩
    rw [hmessage, Thrown.error.inj heq]
  obtain ⟨earlier, first, middle, rfl, hok⟩ := exists_call_of_piped rfl hpiped
  have hthrows := hone earlier first middle later rest (by simp [hsteps]) hok
  have hout := starting_coreRespond hforeign later hsent
  rw [hthrows] at hout
  exact hout.2 rfl

/-- A text while a readable is piped: the text is sent, and nothing is thrown. -/
theorem not_oneResponse :
    ¬ ∀ (cfg : Config ℕ) (request : Request ℕ) (correlationId : String)
      (steps : List (CoreStep ℕ)), OneResponse cfg (coreWorld request correlationId) steps := by
  intro h
  have hthrows := h { generator := fun _ => "" } ⟨"GET", "/", ∅, 0, 0, 0, 0⟩ ""
    [.call (.stream {}), .call (.text "late" none)] [] (.stream {}) [] (.text "late" none) []
    rfl rfl
  have hresult := congrArg Prod.fst hthrows
  cases hresult

end Blaize.Server
