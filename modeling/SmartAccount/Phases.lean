import SmartAccount.Lane

/-!
# The phases of a step

A registered copy of a step is dormant until it is released.  From then on its flight is
early, before its call is dispatched, or late, between the dispatch and its
`on_step_resolved`.  Each phase remembers in the trace how it was reached.
`Early.deliver` and `Late.deliver` say everything a delivery can do to such a flight.
-/

namespace SmartAccount

open Foundation Function

/-! ## Dormant flights -/

/-- The yield of a step nobody has released: still waiting, or timed out. -/
inductive Dormant (ns stepId : String) (gas : Nat) : Flight → Prop
  | waiting : Dormant ns stepId gas ⟨.yielded, [⟨.onStepResumed ns stepId, gas⟩]⟩
  | expired : Dormant ns stepId gas ⟨.done .failed, [⟨.onStepResumed ns stepId, gas⟩]⟩

/-- All that is outstanding in the lane are yields nobody has released. -/
def Lane.Quiet (ns : String) (ℓ : Lane) : Prop :=
  ∀ id f, ℓ.flight id = some f → ∃ stepId gas, Dormant ns stepId gas f

/-! ## What a copy leaves in the trace -/

/-- The gate of a copy, if it has one, was called and then answered in range. -/
def Checked (ns : String) (id : Nat) (call : Step) (t : Trace) : Prop :=
  ∀ preGate, call.preGate = some preGate → ∃ result bytes,
    result.checked = .ok bytes ∧ preGate.evaluate bytes = .inRange ∧
      [.called ns id (gatePromise preGate ns call.stepId call.gasTgas).call,
        .delivered id (.onPreGateChecked ns call.stepId) result].Sublist t

/-- The call of a copy materialized with these arguments. -/
def materialized (authorizerId : Option AccountId) (ns : String) (call : Step) (args : Bytes) :
    Promise :=
  resolvedPromise authorizerId ns call.stepId { call with args := args }

/-- A copy's call was dispatched. -/
def dispatchStory (authorizerId : Option AccountId) (ns : String) (id : Nat) (call : Step)
    (args : Bytes) : Trace :=
  [.dispatched ns call.stepId id call args,
    .called ns id (materialized authorizerId ns call args).call]

/-- The target of an asserted copy returned this, and the postcheck was called. -/
def postcheckStory (ns : String) (id : Nat) (stepId : String) (assertionId : AccountId)
    (method : String) (args expected : Bytes) (gasTgas : Nat) (returned : PromiseResult) : Trace :=
  [.delivered id (.onAssertedRunPostcheck ns stepId assertionId method args expected gasTgas)
      returned,
    .called ns id ⟨assertionId, method, .raw args, 0, gasTgas⟩]

def StepPolicy.isAsserted : StepPolicy → Bool
  | asserted _ _ _ _ _ => true
  | _ => false

/-- What a copy's policy asks for came true before its `on_step_resolved` ran: the
top-level promise returned, or the target returned and the postcheck called after it
returned exactly the expected bytes. -/
inductive Vouched (ns : String) (id : Nat) (call : Step) (t : Trace) : Prop
  | topLevel {authorizerId : Option AccountId} {args bytes : Bytes} {result : PromiseResult}
      (plain : call.policy.isAsserted = false) (small : result.checked = .ok bytes)
      (story : (dispatchStory authorizerId ns id call args ++
        [TraceEvent.delivered id (.onStepResolved ns call.stepId) result]).Sublist t) :
      Vouched ns id call t
  | asserted {authorizerId : Option AccountId} {args bytes : Bytes} {assertionId : AccountId}
      {method : String} {assertionArgs expected : Bytes} {gasTgas : Nat}
      {returned answered result : PromiseResult}
      (policy : call.policy = .asserted assertionId method assertionArgs expected gasTgas)
      (small : returned.checked = .ok bytes) (equal : answered.checked = .ok expected)
      (resolved : result.checked = .ok [])
      (story : (dispatchStory authorizerId ns id call args ++
        postcheckStory ns id call.stepId assertionId method assertionArgs expected gasTgas
          returned ++
        [TraceEvent.delivered id (.onAssertedEvaluatePostcheck ns call.stepId expected) answered,
          TraceEvent.delivered id (.onStepResolved ns call.stepId) result]).Sublist t) :
      Vouched ns id call t

/-! ## Early and late flights -/

/-- A released copy whose call has not been dispatched. -/
inductive Early (ns : String) (id : Nat) (call : Step) (gas : Nat) (t : Trace) : Flight → Prop
  | resumed : Early ns id call gas t ⟨.done resumeSignal, [⟨.onStepResumed ns call.stepId, gas⟩]⟩
  | gated {preGate : PreGate} {p : Promise} (gate : call.preGate = some preGate)
      (built : p = gatePromise preGate ns call.stepId call.gasTgas)
      (asked : .called ns id p.call ∈ t) : Early ns id call gas t ⟨.call p.call, p.thens⟩

/-- A copy whose call is dispatched and whose `on_step_resolved` has not run. -/
inductive Late (ns : String) (id : Nat) (call : Step) (t : Trace) : Flight → Prop
  | dispatched {authorizerId : Option AccountId} {args : Bytes} {p : Promise}
      (built : p = materialized authorizerId ns call args)
      (story : (dispatchStory authorizerId ns id call args).Sublist t) :
      Late ns id call t ⟨.call p.call, p.thens⟩
  | posted {authorizerId : Option AccountId} {args bytes : Bytes} {assertionId : AccountId}
      {method : String} {assertionArgs expected : Bytes} {gasTgas evaluateGas resolveGas : Nat}
      {returned : PromiseResult}
      (policy : call.policy = .asserted assertionId method assertionArgs expected gasTgas)
      (small : returned.checked = .ok bytes)
      (story : (dispatchStory authorizerId ns id call args ++
        postcheckStory ns id call.stepId assertionId method assertionArgs expected gasTgas
          returned).Sublist t) :
      Late ns id call t ⟨.call ⟨assertionId, method, .raw assertionArgs, 0, gasTgas⟩,
        [⟨.onAssertedEvaluatePostcheck ns call.stepId expected, evaluateGas⟩,
          ⟨.onStepResolved ns call.stepId, resolveGas⟩]⟩
  | matched {authorizerId : Option AccountId} {args bytes : Bytes} {assertionId : AccountId}
      {method : String} {assertionArgs expected : Bytes} {gasTgas resolveGas : Nat}
      {returned answered : PromiseResult}
      (policy : call.policy = .asserted assertionId method assertionArgs expected gasTgas)
      (small : returned.checked = .ok bytes) (equal : answered.checked = .ok expected)
      (story : (dispatchStory authorizerId ns id call args ++
        postcheckStory ns id call.stepId assertionId method assertionArgs expected gasTgas
          returned ++
        [TraceEvent.delivered id (.onAssertedEvaluatePostcheck ns call.stepId expected)
          answered]).Sublist t) :
      Late ns id call t ⟨.done (.successful []), [⟨.onStepResolved ns call.stepId, resolveGas⟩]⟩
  | rejected {resolveGas : Nat} :
      Late ns id call t ⟨.done .failed, [⟨.onStepResolved ns call.stepId, resolveGas⟩]⟩

section Later

variable {ns : String} {id : Nat} {call : Step} {gas : Nat} {t t' : Trace} {f : Flight}

theorem Checked.later (checked : Checked ns id call t) (longer : t.Sublist t') :
    Checked ns id call t' := by
  intro preGate gate
  obtain ⟨result, bytes, small, verdict, story⟩ := checked preGate gate
  exact ⟨result, bytes, small, verdict, story.trans longer⟩

theorem Vouched.later (vouched : Vouched ns id call t) (longer : t.Sublist t') :
    Vouched ns id call t' := by
  cases vouched with
  | topLevel plain small story => exact .topLevel plain small (story.trans longer)
  | asserted policy small equal resolved story =>
      exact .asserted policy small equal resolved (story.trans longer)

/-- A vouched copy's `on_step_resolved` ran on an Ok outcome. -/
theorem Vouched.resolved (vouched : Vouched ns id call t) : ∃ result bytes,
    .delivered id (.onStepResolved ns call.stepId) result ∈ t ∧ result.checked = .ok bytes := by
  cases vouched with
  | topLevel plain small story => exact ⟨_, _, story.subset (by simp), small⟩
  | asserted policy small equal resolved story => exact ⟨_, _, story.subset (by simp), resolved⟩

theorem Early.later (early : Early ns id call gas t f) (longer : t.Sublist t') :
    Early ns id call gas t' f := by
  cases early with
  | resumed => exact .resumed
  | gated gate built asked => exact .gated gate built (longer.subset asked)

theorem Late.later (late : Late ns id call t f) (longer : t.Sublist t') :
    Late ns id call t' f := by
  cases late with
  | dispatched built story => exact .dispatched built (story.trans longer)
  | posted policy small story => exact .posted policy small (story.trans longer)
  | matched policy small equal story => exact .matched policy small equal (story.trans longer)
  | rejected => exact .rejected

end Later

/-- The callbacks behind a dispatched call. -/
theorem materialized_thens (authorizerId : Option AccountId) (ns : String) (call : Step)
    (args : Bytes) : (materialized authorizerId ns call args).thens =
      (match call.policy with
        | .asserted assertionId method assertionArgs expected gasTgas =>
            [⟨.onAssertedRunPostcheck ns call.stepId assertionId method assertionArgs expected
                gasTgas,
              assertedPostcheckRunGasTgas + gasTgas + assertedPostcheckEvaluateGasTgas⟩]
        | _ => []) ++ [⟨.onStepResolved ns call.stepId, stepResolveCallbackGasTgas⟩] := by
  unfold materialized resolvedPromise dispatchPromiseForCall buildCallPromise
  cases call.policy <;> cases authorizerId <;> rfl

/-! ## Deliveries to dormant flights -/

/-- Events that neither dispatch a step nor resolve one. -/
def TraceEvent.isPassing : TraceEvent → Bool
  | delivered _ (.onStepResolved _ _) _ => false
  | delivered _ _ _ => true
  | rolledBack _ _ _ => true
  | called _ _ _ => true
  | _ => false

/-- A delivery that halts at a stored step. -/
inductive Lane.Halts (ns : String) (id : Nat) (stepId : String) (ℓ : Lane) : Lane → Prop
  | mk {event : TraceEvent} {yielded : RegisteredStep} {env : Env} {status : AutomationRunStatus}
      {data : HaltData} (passing : event.isPassing = true)
      (stored : ℓ.step stepId = some yielded)
      (unsuccessful : status = .resumeFailed ∨ status = .downstreamFailed)
      (about : data.sequenceNamespace = ns) :
      Halts ns id stepId ℓ (((ℓ.note event).halt env id ns stepId status data).land id)

/-- A timed-out yield whose callback fails ends without a word. -/
theorem Dormant.rolledBack {ns stepId : String} {gas id : Nat} {ℓ ℓ' : Lane} {f : Flight}
    (dormant : Dormant ns stepId gas f) (flying : ℓ.flight id = some f)
    (failed : Lane.RolledBack ℓ id ℓ') :
    ∃ callback result, ℓ' = (ℓ.note (.rolledBack id callback result)).land id := by
  obtain ⟨waiting, answer, outcome⟩ := failed
  rw [flying, Option.some.injEq] at waiting
  cases dormant with
  | waiting =>
      cases waiting
      cases outcome
  | expired =>
      cases waiting
      exact ⟨_, _, rfl⟩

/-- A timed-out yield halts at its step, or ends without a word. -/
theorem Dormant.deliver {ns stepId : String} {gas id : Nat} {ℓ ℓ' : Lane} {f : Flight}
    (dormant : Dormant ns stepId gas f) (flying : ℓ.flight id = some f)
    (delivered : Lane.Deliver ns ℓ id ℓ') :
    (∃ event : TraceEvent, event.isPassing = true ∧
      (ℓ.step stepId = none ∨ ∃ callback result, event = .rolledBack id callback result) ∧
      ℓ' = (ℓ.note event).land id) ∨ Lane.Halts ns id stepId ℓ ℓ' := by
  cases delivered with
  | ran due effect =>
      obtain ⟨waiting, answer, outcome⟩ := due
      rw [flying, Option.some.injEq] at waiting
      cases dormant with
      | waiting =>
          cases waiting
          cases outcome
      | expired =>
          cases waiting
          cases outcome
          cases effect with
          | asleep absent => exact .inl ⟨_, rfl, .inl absent, rfl⟩
          | halted cause stored unsuccessful about =>
              rename_i at' yielded env status data
              have same : at' = stepId := by
                rcases cause with eq | eq
                · exact ((Callback.onStepResumed.inj eq).2).symm
                · cases eq
              subst same
              exact .inr (.mk rfl stored unsuccessful about)
          | dispatched stored cleared built => cases cleared
  | rolledBack due =>
      obtain ⟨callback, result, failed⟩ := dormant.rolledBack flying (.mk due)
      exact .inl ⟨_, rfl, .inr ⟨callback, result, rfl⟩, failed⟩

/-! ## Deliveries to early flights -/

/-- Everything a delivery can do to the early flight of a copy. -/
inductive EarlyOutcome (ns : String) (id : Nat) (call : Step) (gas : Nat) (ℓ : Lane) :
    Lane → Prop
  | lapsed {event : TraceEvent} (passing : event.isPassing = true)
      (absent : ℓ.step call.stepId = none) : EarlyOutcome ns id call gas ℓ ((ℓ.note event).land id)
  | refused {event : TraceEvent} (passing : event.isPassing = true) :
      EarlyOutcome ns id call gas ℓ ((ℓ.note event).land id)
  | halted {ℓ' : Lane} (halts : Lane.Halts ns id call.stepId ℓ ℓ') :
      EarlyOutcome ns id call gas ℓ ℓ'
  | gated {events : Trace} {yielded : RegisteredStep} {f : Flight}
      (passing : ∀ event ∈ events, event.isPassing = true)
      (stored : ℓ.step call.stepId = some yielded)
      (early : Early ns id call gas (ℓ.trace ++ events) f) :
      EarlyOutcome ns id call gas ℓ (ℓ.onward events id f)
  | dispatched {event : TraceEvent} {authorizerId : Option AccountId} {args : Bytes}
      {yielded : RegisteredStep} {f : Flight} (passing : event.isPassing = true)
      (stored : ℓ.step call.stepId = some yielded)
      (checked : Checked ns id call (ℓ.trace ++ [event]))
      (late : Late ns id call (ℓ.trace ++ event :: dispatchStory authorizerId ns id call args) f) :
      EarlyOutcome ns id call gas ℓ
        (ℓ.onward (event :: dispatchStory authorizerId ns id call args) id f)

/-- The step stored for a copy, if any, is the copy itself. -/
def StoresOwn (ℓ : Lane) (id : Nat) (call : Step) : Prop :=
  ∀ yielded, ℓ.step call.stepId = some yielded → yielded.yieldId = id ∧ yielded.call = call

/-- Dispatching a cleared copy. -/
theorem EarlyOutcome.of_dispatch {ns : String} {id gas : Nat} {call : Step} {ℓ : Lane}
    {event : TraceEvent} {authorizerId : Option AccountId} {args : Bytes}
    {yielded : RegisteredStep} {p : Promise} (passing : event.isPassing = true)
    (own : StoresOwn ℓ id call) (stored : ℓ.step call.stepId = some yielded)
    (checked : Checked ns id call (ℓ.trace ++ [event]))
    (built : p = resolvedPromise authorizerId ns call.stepId { yielded.call with args := args }) :
    EarlyOutcome ns id call gas ℓ
      ((((ℓ.note event).note (.dispatched ns call.stepId yielded.yieldId yielded.call args)).note
        (.called ns id p.call)).settle id ⟨.call p.call, p.thens ++ []⟩) := by
  obtain ⟨rfl, rfl⟩ := own yielded stored
  subst built
  have story : (dispatchStory authorizerId ns yielded.yieldId yielded.call args).Sublist
      (ℓ.trace ++ event :: dispatchStory authorizerId ns yielded.yieldId yielded.call args) :=
    (List.sublist_cons_self ..).trans (List.sublist_append_right ..)
  have landed : EarlyOutcome ns yielded.yieldId yielded.call gas ℓ _ :=
    .dispatched passing stored checked (.dispatched rfl story)
  have nonempty : (materialized authorizerId ns yielded.call args).thens ≠ [] := by
    rw [materialized_thens]
    simp
  rw [List.append_nil]
  have noted : ((ℓ.note event).note (.dispatched ns yielded.call.stepId yielded.yieldId
      yielded.call args)).note (.called ns yielded.yieldId
        (materialized authorizerId ns yielded.call args).call) =
      { ℓ with trace := ℓ.trace ++ event ::
        dispatchStory authorizerId ns yielded.yieldId yielded.call args } := by
    simp [Lane.note, dispatchStory]
  have settled := Lane.settle_eq_onward (f := ⟨.call (materialized authorizerId ns yielded.call
    args).call, (materialized authorizerId ns yielded.call args).thens⟩) yielded.yieldId noted nonempty
  exact settled.symm ▸ landed

/-- What a delivery does to the early flight of a copy. -/
theorem Early.deliver {ns : String} {id gas : Nat} {call : Step} {ℓ ℓ' : Lane} {f : Flight}
    (early : Early ns id call gas ℓ.trace f) (own : StoresOwn ℓ id call)
    (flying : ℓ.flight id = some f) (delivered : Lane.Deliver ns ℓ id ℓ') :
    EarlyOutcome ns id call gas ℓ ℓ' := by
  cases delivered with
  | ran due effect =>
      obtain ⟨waiting, answer, outcome⟩ := due
      rw [flying, Option.some.injEq] at waiting
      cases early with
      | resumed =>
          cases waiting
          cases outcome
          cases effect with
          | asleep absent => exact .lapsed rfl absent
          | halted cause stored unsuccessful about =>
              rename_i at' yielded env status data
              have same : at' = call.stepId := by
                rcases cause with eq | eq
                · exact ((Callback.onStepResumed.inj eq).2).symm
                · cases eq
              subst same
              exact .halted (.mk rfl stored unsuccessful about)
          | gated stored gate built =>
              rename_i yielded preGate p
              obtain ⟨-, rfl⟩ := own yielded stored
              subst built
              rw [List.append_nil, Lane.settle_eq_onward _ (Lane.note_note ..)
                (List.cons_ne_nil _ _)]
              refine .gated ?_ stored (.gated gate rfl ?_) <;> simp [TraceEvent.isPassing]
          | dispatched stored cleared built =>
              rename_i yielded authorizerId args p
              cases cleared with
              | ungated ungated =>
                  refine .of_dispatch rfl own stored ?_ built
                  intro preGate gate
                  rw [← (own yielded stored).2, ungated] at gate
                  cases gate
      | gated gate built asked =>
          subst built
          cases waiting
          cases effect with
          | unchecked ungated =>
              refine .lapsed rfl ?_
              cases stored : ℓ.step call.stepId with
              | none => rfl
              | some yielded =>
                  have open_ := ungated yielded stored
                  rw [(own yielded stored).2, gate] at open_
                  cases open_
          | halted cause stored unsuccessful about =>
              rename_i at' yielded env status data
              have same : at' = call.stepId := by
                rcases cause with eq | eq
                · cases eq
                · exact ((Callback.onPreGateChecked.inj eq).2).symm
              subst same
              exact .halted (.mk rfl stored unsuccessful about)
          | dispatched stored cleared built =>
              rename_i yielded authorizerId args p
              cases cleared with
              | inRange gate' small verdict =>
                  refine .of_dispatch rfl own stored ?_ built
                  rw [(own yielded stored).2, gate, Option.some.injEq] at gate'
                  subst gate'
                  intro preGate' again
                  rw [gate, Option.some.injEq] at again
                  subst again
                  exact ⟨_, _, small, verdict,
                    (List.singleton_sublist.mpr asked).append (List.Sublist.refl _)⟩
  | rolledBack due =>
      have waiting := due.waiting
      rw [flying, Option.some.injEq] at waiting
      cases early with
      | resumed =>
          cases waiting
          exact .refused rfl
      | gated gate built asked =>
          subst built
          cases waiting
          exact .refused rfl

/-! ## Deliveries to late flights -/

/-- What every `on_step_resolved` does first: drop the step and set the queue. -/
abbrev Lane.resolved (ns : String) (ℓ : Lane) (id : Nat) (stepId : String)
    (result : PromiseResult) (waiting : List String) : Lane :=
  ((ℓ.note (.delivered id (.onStepResolved ns stepId) result)).dropStep stepId).setQueue waiting

/-- `on_step_resolved` with nothing left in the queue. -/
abbrev Lane.complete (ns : String) (ℓ : Lane) (env : Env) (id : Nat) (stepId : String)
    (result : PromiseResult) (resultLen : Nat) : Lane :=
  ((ℓ.resolved ns id stepId result []).note
    (.emitted (some id) (.sequenceCompleted ns stepId resultLen))).finish env (some id) ns
      .succeeded none

/-- Everything a delivery can do to the late flight of a copy. -/
inductive LateOutcome (ns : String) (id : Nat) (call : Step) (ℓ : Lane) : Lane → Prop
  | refused {event : TraceEvent} {head : Head} {gas : Nat} (passing : event.isPassing = true)
      (waiting : ℓ.flight id = some ⟨head, [⟨.onStepResolved ns call.stepId, gas⟩]⟩) :
      LateOutcome ns id call ℓ ((ℓ.note event).land id)
  | followed {events : Trace} {f : Flight} (passing : ∀ event ∈ events, event.isPassing = true)
      (late : Late ns id call (ℓ.trace ++ events) f) :
      LateOutcome ns id call ℓ (ℓ.onward events id f)
  | advanced {next : String} {bytes : Bytes} {result : PromiseResult} {waiting : List String}
      {yielded : RegisteredStep} {thens : List Then} (small : result.checked = .ok bytes)
      (vouched : Vouched ns id call
        (ℓ.trace ++ [.delivered id (.onStepResolved ns call.stepId) result]))
      (queued : ℓ.queue = some (next :: waiting)) (other : next ≠ call.stepId)
      (stored : ℓ.step next = some yielded)
      (dormant : ℓ.flight yielded.yieldId = some ⟨.yielded, thens⟩) :
      LateOutcome ns id call ℓ
        (((ℓ.resolved ns id call.stepId result waiting).resume ns next yielded.yieldId
          thens).land id)
  | stuck {next : String} {bytes : Bytes} {result : PromiseResult} {waiting : List String}
      {env : Env} {data : HaltData} (small : result.checked = .ok bytes)
      (queued : ℓ.queue = some (next :: waiting)) (about : data.sequenceNamespace = ns) :
      LateOutcome ns id call ℓ
        ((((ℓ.resolved ns id call.stepId result []).finish env (some id) ns .resumeFailed
          (some next)).note (.emitted (some id) (.sequenceHalted data))).land id)
  | completed {bytes : Bytes} {result : PromiseResult} {env : Env}
      (small : result.checked = .ok bytes)
      (vouched : Vouched ns id call
        (ℓ.trace ++ [.delivered id (.onStepResolved ns call.stepId) result]))
      (drained : ℓ.queue = none ∨ ℓ.queue = some []) :
      LateOutcome ns id call ℓ
        ((ℓ.complete ns env id call.stepId result bytes.length).land id)
  | failed {error : PromiseError} {result : PromiseResult} {env : Env}
      (failure : result.checked = .error error) :
      LateOutcome ns id call ℓ
        (((ℓ.resolved ns id call.stepId result []).finish env (some id) ns .downstreamFailed
            (some call.stepId)).land id)

/-- `on_step_resolved` of a copy whose policy was met if its outcome is Ok. -/
theorem LateOutcome.of_resolved {ns : String} {id : Nat} {call : Step} {ℓ ℓ' : Lane}
    {result : PromiseResult} {head : Head} {thens : List Then}
    (met : ∀ bytes, result.checked = .ok bytes → Vouched ns id call
      (ℓ.trace ++ [.delivered id (.onStepResolved ns call.stepId) result]))
    (effect : Lane.Effect ns id (ℓ.note (.delivered id (.onStepResolved ns call.stepId) result))
      (.onStepResolved ns call.stepId) result ℓ' head thens) :
    LateOutcome ns id call ℓ (ℓ'.settle id ⟨head, thens ++ []⟩) := by
  cases effect with
  | halted cause stored unsuccessful about => rcases cause with eq | eq <;> cases eq
  | dispatched stored cleared built => cases cleared
  | advanced small queued other stored dormant =>
      exact .advanced small (met _ small) queued other stored dormant
  | stuck small queued about => exact .stuck small queued about
  | completed small drained => exact .completed small (met _ small) drained
  | failed failure => exact .failed failure

/-- What a delivery does to the late flight of a copy. -/
theorem Late.deliver {ns : String} {id : Nat} {call : Step} {ℓ ℓ' : Lane} {f : Flight}
    (late : Late ns id call ℓ.trace f) (flying : ℓ.flight id = some f)
    (delivered : Lane.Deliver ns ℓ id ℓ') : LateOutcome ns id call ℓ ℓ' := by
  have longer : ∀ {story : Trace} (event : TraceEvent), story.Sublist ℓ.trace →
      (story ++ [event]).Sublist (ℓ.trace ++ [event]) :=
    fun event story => story.append (List.Sublist.refl _)
  cases delivered with
  | ran due effect =>
      rename_i result
      obtain ⟨waiting, answer, outcome⟩ := due
      rw [flying, Option.some.injEq] at waiting
      cases late with
      | dispatched built story =>
          subst built
          rw [materialized_thens] at waiting
          cases policy : call.policy with
          | asserted assertionId method assertionArgs expected gasTgas =>
              rw [policy] at waiting
              cases waiting
              cases effect with
              | halted cause stored unsuccessful about => rcases cause with eq | eq <;> cases eq
              | dispatched stored cleared built => cases cleared
              | posted small built =>
                  subst built
                  rw [List.singleton_append, Lane.settle_eq_onward _ (Lane.note_note ..)
                    (List.cons_ne_nil _ _)]
                  have posted := story.append (List.Sublist.refl (postcheckStory ns id
                    call.stepId assertionId method assertionArgs expected gasTgas result))
                  refine .followed ?_ (.posted policy small posted)
                  simp [TraceEvent.isPassing]
          | direct =>
              rw [policy] at waiting
              cases waiting
              refine .of_resolved (fun bytes small => ?_) effect
              exact .topLevel (by rw [policy]; rfl) small (longer _ story)
          | adapter adapterId adapterMethod =>
              rw [policy] at waiting
              cases waiting
              refine .of_resolved (fun bytes small => ?_) effect
              exact .topLevel (by rw [policy]; rfl) small (longer _ story)
      | posted policy small story =>
          cases waiting
          cases effect with
          | halted cause stored unsuccessful about => rcases cause with eq | eq <;> cases eq
          | dispatched stored cleared built => cases cleared
          | matched equal =>
              rw [List.nil_append, Lane.settle_eq_onward _ (Lane.note_eq ..) (List.cons_ne_nil _ _)]
              refine .followed ?_ (.matched policy small equal (longer _ story))
              simp [TraceEvent.isPassing]
      | matched policy small equal story =>
          cases waiting
          cases outcome
          refine .of_resolved (fun bytes _ => ?_) effect
          have whole := longer (.delivered id (.onStepResolved ns call.stepId)
            (.successful [])) story
          rw [List.append_assoc] at whole
          exact .asserted policy small equal rfl whole
      | rejected =>
          cases waiting
          cases outcome
          exact .of_resolved (fun bytes small => by cases small) effect
  | rolledBack due =>
      have waiting := due.waiting
      rw [flying, Option.some.injEq] at waiting
      have rejected : ∀ {callback : Callback} {result : PromiseResult} {resolveGas : Nat},
          LateOutcome ns id call ℓ ((ℓ.note (.rolledBack id callback result)).settle id
            ⟨.done .failed, [⟨.onStepResolved ns call.stepId, resolveGas⟩]⟩) := by
        intro callback result resolveGas
        rw [Lane.settle_eq_onward _ (Lane.note_eq ..) (List.cons_ne_nil _ _)]
        exact .followed (by simp [TraceEvent.isPassing]) .rejected
      cases late with
      | dispatched built story =>
          subst built
          rw [materialized_thens] at waiting
          cases policy : call.policy with
          | asserted assertionId method assertionArgs expected gasTgas =>
              rw [policy] at waiting
              cases waiting
              exact rejected
          | direct =>
              rw [policy] at waiting
              rw [materialized_thens, policy] at flying
              cases waiting
              exact .refused rfl flying
          | adapter adapterId adapterMethod =>
              rw [policy] at waiting
              rw [materialized_thens, policy] at flying
              cases waiting
              exact .refused rfl flying
      | posted policy small story =>
          cases waiting
          exact rejected
      | matched policy small equal story =>
          cases waiting
          exact .refused rfl flying
      | rejected =>
          cases waiting
          exact .refused rfl flying

end SmartAccount
