import SmartAccount.Authorizer

/-!
# Gas along a step

The host lets a callback create no promise whose calls take more static gas than the
callback was given.  The budgets of a step's callbacks are added by hand at registration, in
the gate branch and in the three dispatch policies.  They fit for every valid step without
a gate.  For a gated one `on_step_resumed` has to pay for the gate out of the policy's
overhead, and `on_pre_gate_checked` is given nothing for the overhead of an adapter or of
an assertion, so the budgets fit only where the gate never lets the call through
(`gas_conserved_iff`).
-/

namespace SmartAccount

open Foundation

/-! ## What a step's callbacks are given and create -/

/-- The step is registered under this namespace. -/
def Machine.Holds (m : Machine) (ns : String) (call : Step) : Prop :=
  ∃ yieldId createdAtMs, m.getStep ns call.stepId = some ⟨yieldId, call, createdAtMs⟩

/-- The callbacks a step reaches, each with the static gas it is given: `on_step_resumed`
with `resume_callback_gas`, every other one with what the sequencer attached to it. -/
inductive Reached (ns : String) (call : Step) : Then → Prop
  | resumed : Reached ns call ⟨.onStepResumed ns call.stepId, resumeCallbackGas call⟩
  | chained {env : Env} {m m' : Machine} {t t' : Then} {result : PromiseResult} {p : Promise}
      (reached : Reached ns call t) (holds : m.Holds ns call)
      (ran : m.runCallback env t.callback result = .ok (m', .promise p))
      (behind : t' ∈ p.thens) : Reached ns call t'

/-- No callback the step reaches creates calls for more static gas than it was given, and
neither does the authorizer that a call of the step passes through. -/
def GasConserved (call : Step) : Prop :=
  ∀ (ns : String) (t : Then), Reached ns call t →
    ∀ (env : Env) (m m' : Machine) (result : PromiseResult) (p : Promise), m.Holds ns call →
      m.runCallback env t.callback result = .ok (m', .promise p) →
      p.staticGas ≤ t.gasTgas ∧
        ∀ (a : Authorizer) (signer predecessor : AccountId) (inner : FunctionCall),
          a.forward p.call.receiverId signer predecessor p.call = .ok inner →
            inner.gasTgas ≤ p.call.gasTgas

/-- A gate that some outcome passes, before a call whose arguments some saved results fill in. -/
def Dispatchable (preGate : PreGate) (call : Step) : Prop :=
  (∃ bytes : Bytes, bytes.length ≤ maxCallbackResultBytes ∧
      (preGate.evaluate bytes).matched = true) ∧
    ∃ (c : Contract) (ns : String) (effective : Step), c.materializeStepCall ns call = .ok effective

/-- The gate is paid for out of the policy's overhead, and the call behind it is never made. -/
def GateFits (call : Step) : Prop :=
  ∀ preGate, call.preGate = some preGate →
    preGate.gateGasTgas + 5 ≤ adapterOverheadTgas call.policy ∧ ¬ Dispatchable preGate call

/-! ## Static gas -/

/-- What the hop through the authorizer takes on top of the call. -/
def hopGas : Option AccountId → Nat
  | some _ => authorizerHopOverheadTgas
  | none => 0

theorem staticGas_resolvedPromise (authorizerId : Option AccountId) (ns stepId : String)
    (call : Step) :
    (resolvedPromise authorizerId ns stepId call).staticGas =
      call.gasTgas + adapterOverheadTgas call.policy + hopGas authorizerId +
        stepResolveCallbackGasTgas := by
  unfold resolvedPromise dispatchPromiseForCall buildCallPromise
  cases call.policy with
  | direct => cases authorizerId <;> rfl
  | adapter adapterId adapterMethod =>
      cases authorizerId <;>
        simp only [Promise.andThen, Promise.staticGas, adapterOverheadTgas, hopGas,
          List.nil_append, List.map_cons, List.map_nil, List.sum_cons, List.sum_nil] <;> omega
  | asserted assertionId assertionMethod assertionArgs expectedReturn assertionGasTgas =>
      cases authorizerId <;>
        simp only [Promise.andThen, Promise.staticGas, adapterOverheadTgas, hopGas,
          List.nil_append, List.cons_append, List.map_cons, List.map_nil, List.sum_cons,
          List.sum_nil] <;> omega

theorem staticGas_gatePromise (preGate : PreGate) (ns stepId : String) (gasTgas : Nat) :
    (gatePromise preGate ns stepId gasTgas).staticGas =
      preGate.gateGasTgas + (preGateCheckCallbackGasTgas + gasTgas + stepResolveCallbackGasTgas) :=
  rfl

theorem staticGas_materialized {c : Contract} {ns : String} {call effective : Step}
    (materialized : c.materializeStepCall ns call = .ok effective)
    (authorizerId : Option AccountId) (stepId : String) :
    (resolvedPromise authorizerId ns stepId effective).staticGas =
      call.gasTgas + adapterOverheadTgas call.policy + hopGas authorizerId +
        stepResolveCallbackGasTgas := by
  rw [materializeStepCall_ok materialized, staticGas_resolvedPromise]

/-- A step's call attaches what the step says, on every route. -/
theorem depositYocto_materialized {c : Contract} {ns : String} {call effective : Step}
    (materialized : c.materializeStepCall ns call = .ok effective)
    (authorizerId : Option AccountId) (stepId : String) :
    (resolvedPromise authorizerId ns stepId effective).call.depositYocto =
      call.attachedDepositYocto := by
  rw [materializeStepCall_ok materialized]
  unfold resolvedPromise dispatchPromiseForCall buildCallPromise
  cases call.policy <;> cases authorizerId <;> rfl

/-- The authorizer makes the call it was asked for, with the gas it was asked to attach. -/
theorem forward_gas {a : Authorizer} {account signer predecessor : AccountId}
    {fc inner : FunctionCall} {targetId : AccountId} {methodName : String} {args : CallArgs}
    {gasTgas : Nat} (wraps : fc.args = .dispatch targetId methodName args gasTgas)
    (forwarded : a.forward account signer predecessor fc = .ok inner) :
    inner.gasTgas = gasTgas := by
  obtain ⟨method, a', decoded, accepted⟩ := Authorizer.forward_ok forwarded
  rw [wraps, AuthorizerCall.decode] at decoded
  split at decoded
  · cases decoded
    cases Authorizer.call_performs accepted
    rfl
  · cases decoded

/-! ## What each callback creates -/

/-- The callbacks of a step by name, with the gas each is given. -/
inductive Budgeted (ns : String) (call : Step) : Then → Prop
  | resumed : Budgeted ns call ⟨.onStepResumed ns call.stepId, resumeCallbackGas call⟩
  | gateChecked {preGate : PreGate} (gated : call.preGate = some preGate) :
      Budgeted ns call ⟨.onPreGateChecked ns call.stepId,
        preGateCheckCallbackGasTgas + call.gasTgas + stepResolveCallbackGasTgas⟩
  | postcheckRun (assertionId : AccountId) (assertionMethod : String)
      (assertionArgs expectedReturn : Bytes) (assertionGasTgas : Nat) :
      Budgeted ns call ⟨.onAssertedRunPostcheck ns call.stepId assertionId assertionMethod
          assertionArgs expectedReturn assertionGasTgas,
        assertedPostcheckRunGasTgas + assertionGasTgas + assertedPostcheckEvaluateGasTgas⟩
  | postcheckEvaluated (expectedReturn : Bytes) :
      Budgeted ns call ⟨.onAssertedEvaluatePostcheck ns call.stepId expectedReturn,
        assertedPostcheckEvaluateGasTgas⟩
  | resolved : Budgeted ns call ⟨.onStepResolved ns call.stepId, stepResolveCallbackGasTgas⟩

/-- What a callback of the step creates, given where the step is stored. -/
inductive Creates (ns : String) (call : Step) : Callback → Promise → Prop
  | gate {preGate : PreGate} (gated : call.preGate = some preGate) :
      Creates ns call (.onStepResumed ns call.stepId)
        (gatePromise preGate ns call.stepId call.gasTgas)
  | dispatched {authorizerId : Option AccountId} {c : Contract} {effective : Step}
      (ungated : call.preGate = none)
      (materialized : c.materializeStepCall ns call = .ok effective) :
      Creates ns call (.onStepResumed ns call.stepId)
        (resolvedPromise authorizerId ns call.stepId effective)
  | passed {preGate : PreGate} {authorizerId : Option AccountId} {c : Contract}
      {effective : Step} {bytes : Bytes} (gated : call.preGate = some preGate)
      (small : bytes.length ≤ maxCallbackResultBytes)
      (matched : (preGate.evaluate bytes).matched = true)
      (materialized : c.materializeStepCall ns call = .ok effective) :
      Creates ns call (.onPreGateChecked ns call.stepId)
        (resolvedPromise authorizerId ns call.stepId effective)
  | postcheck (assertionId : AccountId) (assertionMethod : String)
      (assertionArgs expectedReturn : Bytes) (assertionGasTgas : Nat) :
      Creates ns call (.onAssertedRunPostcheck ns call.stepId assertionId assertionMethod
          assertionArgs expectedReturn assertionGasTgas)
        ⟨⟨assertionId, assertionMethod, .raw assertionArgs, 0, assertionGasTgas⟩,
          [⟨.onAssertedEvaluatePostcheck ns call.stepId expectedReturn,
            assertedPostcheckEvaluateGasTgas⟩]⟩

section Callbacks

variable {env : Env} {m m' : Machine} {ns : String} {call : Step} {p : Promise}

theorem checked_length {result : PromiseResult} {bytes : Bytes}
    (returned : result.checked = .ok bytes) : bytes.length ≤ maxCallbackResultBytes := by
  cases result with
  | failed => cases returned
  | successful bytes' =>
      dsimp only [PromiseResult.checked] at returned
      split at returned
      · rename_i small
        cases returned
        exact small
      · cases returned

theorem materializeAndDispatch_promise {stepId : String} {yielded : RegisteredStep}
    (ran : m.materializeAndDispatch env ns stepId yielded = (m', .promise p)) :
    ∃ effective, m.contract.materializeStepCall ns yielded.call = .ok effective ∧
      p = resolvedPromise m.contract.authorizerId ns stepId effective := by
  unfold Machine.materializeAndDispatch at ran
  split at ran
  · cases ran
  · rename_i effective materialized
    cases ran
    exact ⟨effective, materialized, rfl⟩

theorem creates_onStepResumed (holds : m.Holds ns call) {signal : PromiseResult}
    (ran : m.onStepResumed env ns call.stepId signal = (m', .promise p)) :
    Creates ns call (.onStepResumed ns call.stepId) p := by
  obtain ⟨yieldId, createdAtMs, stored⟩ := holds
  unfold Machine.onStepResumed at ran
  rw [stored] at ran
  cases signal with
  | failed => cases ran
  | successful bytes =>
      dsimp only at ran
      cases gate : call.preGate with
      | some preGate =>
          rw [gate] at ran
          cases ran
          exact .gate gate
      | none =>
          rw [gate] at ran
          obtain ⟨effective, materialized, rfl⟩ := materializeAndDispatch_promise ran
          exact .dispatched gate materialized

theorem creates_onPreGateChecked (holds : m.Holds ns call) {result : PromiseResult}
    (ran : m.onPreGateChecked env ns call.stepId result = (m', .promise p)) :
    Creates ns call (.onPreGateChecked ns call.stepId) p := by
  obtain ⟨yieldId, createdAtMs, stored⟩ := holds
  unfold Machine.onPreGateChecked at ran
  rw [stored] at ran
  dsimp only at ran
  cases gate : call.preGate with
  | none =>
      rw [gate] at ran
      cases ran
  | some preGate =>
      rw [gate] at ran
      dsimp only at ran
      cases returned : result.checked with
      | error error =>
          rw [returned] at ran
          cases ran
      | ok bytes =>
          rw [returned] at ran
          dsimp only at ran
          split at ran
          · rename_i matched
            obtain ⟨effective, materialized, rfl⟩ := materializeAndDispatch_promise ran
            exact .passed gate (checked_length returned) matched materialized
          · cases ran

/-- What a step's callback creates is one of these. -/
theorem Budgeted.creates {t : Then} (budgeted : Budgeted ns call t) (holds : m.Holds ns call)
    {result : PromiseResult} (ran : m.runCallback env t.callback result = .ok (m', .promise p)) :
    Creates ns call t.callback p := by
  cases budgeted with
  | resumed => exact creates_onStepResumed holds (Except.ok.inj ran)
  | gateChecked gated => exact creates_onPreGateChecked holds (Except.ok.inj ran)
  | postcheckRun assertionId assertionMethod assertionArgs expectedReturn assertionGasTgas =>
      obtain ⟨p', posted, eq⟩ := bind_eq_ok.mp ran
      cases eq
      obtain ⟨-, rfl⟩ := Machine.onAssertedRunPostcheck_ok posted
      exact .postcheck ..
  | postcheckEvaluated expectedReturn =>
      obtain ⟨m₁, evaluated, eq⟩ := bind_eq_ok.mp ran
      cases eq
  | resolved => cases ran

end Callbacks

theorem budgeted_of_resolvedPromise {c : Contract} {ns : String} {call effective : Step}
    (materialized : c.materializeStepCall ns call = .ok effective)
    (authorizerId : Option AccountId) {t : Then}
    (behind : t ∈ (resolvedPromise authorizerId ns call.stepId effective).thens) :
    Budgeted ns call t := by
  have same : effective.policy = call.policy ∧ effective.stepId = call.stepId := by
    rw [materializeStepCall_ok materialized]
    exact ⟨rfl, rfl⟩
  have direct : ∀ target method args deposit gas,
      (buildCallPromise authorizerId target method args deposit gas).thens = [] := by
    intro target method args deposit gas
    cases authorizerId <;> rfl
  unfold resolvedPromise dispatchPromiseForCall at behind
  rw [same.1] at behind
  cases policy : call.policy with
  | direct =>
      simp only [policy, Promise.andThen, direct, List.nil_append, List.mem_singleton] at behind
      rw [behind]
      exact .resolved
  | adapter adapterId adapterMethod =>
      simp only [policy, Promise.andThen, direct, List.nil_append, List.mem_singleton] at behind
      rw [behind]
      exact .resolved
  | asserted assertionId assertionMethod assertionArgs expectedReturn assertionGasTgas =>
      simp only [policy, Promise.andThen, direct, List.nil_append, List.cons_append,
        List.mem_cons, List.not_mem_nil, or_false, same.2] at behind
      rcases behind with postcheck | resolve
      · rw [postcheck]
        exact .postcheckRun ..
      · rw [resolve]
        exact .resolved

/-- The callbacks behind what is created are budgeted again. -/
theorem Creates.behind {ns : String} {call : Step} {callback : Callback} {p : Promise}
    (creates : Creates ns call callback p) {t : Then} (behind : t ∈ p.thens) :
    Budgeted ns call t := by
  cases creates with
  | gate gated =>
      rw [List.mem_singleton.mp behind]
      exact .gateChecked gated
  | dispatched ungated materialized => exact budgeted_of_resolvedPromise materialized _ behind
  | passed gated small matched materialized =>
      exact budgeted_of_resolvedPromise materialized _ behind
  | postcheck assertionId assertionMethod assertionArgs expectedReturn assertionGasTgas =>
      rw [List.mem_singleton.mp behind]
      exact .postcheckEvaluated expectedReturn

theorem Reached.budgeted {ns : String} {call : Step} {t : Then} (reached : Reached ns call t) :
    Budgeted ns call t := by
  induction reached with
  | resumed => exact .resumed
  | chained reached holds ran behind ih => exact (ih.creates holds ran).behind behind

/-! ## The authorizer's share -/

section Forwarding

variable {a : Authorizer} {account signer predecessor : AccountId} {inner : FunctionCall}

/-- The authorizer takes no arguments but its own envelopes. -/
theorem forward_envelope {fc : FunctionCall}
    (foreign : ∀ method, AuthorizerCall.decode fc.methodName fc.args ≠ some method) :
    a.forward account signer predecessor fc ≠ .ok inner := by
  intro forwarded
  obtain ⟨method, a', decoded, -⟩ := Authorizer.forward_ok forwarded
  exact foreign method decoded

theorem forward_buildCallPromise_gas {authorizerId : Option AccountId} {targetId : AccountId}
    {methodName : String} {args : CallArgs} {deposit gas : Nat}
    (foreign : ∀ method, AuthorizerCall.decode methodName args ≠ some method)
    (forwarded : a.forward account signer predecessor
      (buildCallPromise authorizerId targetId methodName args deposit gas).call = .ok inner) :
    inner.gasTgas ≤
      (buildCallPromise authorizerId targetId methodName args deposit gas).call.gasTgas := by
  cases authorizerId with
  | none => exact absurd forwarded (forward_envelope foreign)
  | some auth =>
      rw [forward_gas rfl forwarded]
      exact Nat.le_add_right ..

theorem forward_resolvedPromise {authorizerId : Option AccountId} {ns stepId : String}
    {call : Step} (forwarded : a.forward account signer predecessor
      (resolvedPromise authorizerId ns stepId call).call = .ok inner) :
    inner.gasTgas ≤ (resolvedPromise authorizerId ns stepId call).call.gasTgas := by
  have raw : ∀ methodName bytes method,
      AuthorizerCall.decode methodName (.raw bytes) ≠ some method := by
    intro methodName bytes method decoded
    cases decoded
  have adapterCall : ∀ methodName input method,
      AuthorizerCall.decode methodName (.adapterCall input) ≠ some method := by
    intro methodName input method decoded
    cases decoded
  unfold resolvedPromise dispatchPromiseForCall at forwarded ⊢
  cases policy : call.policy with
  | direct =>
      rw [policy] at forwarded
      exact forward_buildCallPromise_gas (raw _ _) forwarded
  | adapter adapterId adapterMethod =>
      rw [policy] at forwarded
      exact forward_buildCallPromise_gas (adapterCall _ _) forwarded
  | asserted assertionId assertionMethod assertionArgs expectedReturn assertionGasTgas =>
      rw [policy] at forwarded
      exact forward_buildCallPromise_gas (raw _ _) forwarded

/-- A call that the authorizer takes comes with more gas than the authorizer attaches. -/
theorem Creates.forwarded {ns : String} {call : Step} {callback : Callback} {p : Promise}
    (creates : Creates ns call callback p)
    (forwarded : a.forward account signer predecessor p.call = .ok inner) :
    inner.gasTgas ≤ p.call.gasTgas := by
  have raw : ∀ methodName bytes method,
      AuthorizerCall.decode methodName (.raw bytes) ≠ some method := by
    intro methodName bytes method decoded
    cases decoded
  cases creates with
  | gate gated => exact absurd forwarded (forward_envelope (raw _ _))
  | dispatched ungated materialized => exact forward_resolvedPromise forwarded
  | passed gated small matched materialized => exact forward_resolvedPromise forwarded
  | postcheck assertionId assertionMethod assertionArgs expectedReturn assertionGasTgas =>
      exact absurd forwarded (forward_envelope (raw _ _))

end Forwarding

/-! ## Conservation -/

section Conservation

variable {call : Step}

theorem hopGas_le (authorizerId : Option AccountId) : hopGas authorizerId ≤ 10 := by
  cases authorizerId with
  | none => exact Nat.zero_le _
  | some auth => exact Nat.le_refl _

/-- Where the gate fits, no callback of the step creates more than it was given. -/
theorem Budgeted.fits {ns : String} {t : Then} (budgeted : Budgeted ns call t)
    (gateFits : GateFits call) {p : Promise} (creates : Creates ns call t.callback p) :
    p.staticGas ≤ t.gasTgas := by
  cases budgeted with
  | resumed =>
      cases creates with
      | gate gated =>
          obtain ⟨paid, -⟩ := gateFits _ gated
          rw [staticGas_gatePromise]
          simp only [resumeCallbackGas, preGateCheckCallbackGasTgas, stepResolveCallbackGasTgas,
            stepResumeOverheadTgas]
          omega
      | dispatched ungated materialized =>
          rename_i authorizerId c effective
          have hop := hopGas_le authorizerId
          rw [staticGas_materialized materialized]
          simp only [resumeCallbackGas, stepResolveCallbackGasTgas, stepResumeOverheadTgas]
          omega
  | gateChecked gated =>
      cases creates with
      | passed gated' small matched materialized =>
          obtain ⟨-, never⟩ := gateFits _ gated'
          exact absurd ⟨⟨_, small, matched⟩, _, _, _, materialized⟩ never
  | postcheckRun assertionId assertionMethod assertionArgs expectedReturn assertionGasTgas =>
      cases creates with
      | postcheck =>
          simp only [Promise.staticGas, List.map_cons, List.map_nil, List.sum_cons, List.sum_nil,
            assertedPostcheckRunGasTgas]
          omega
  | postcheckEvaluated expectedReturn => cases creates
  | resolved => cases creates

/-- The policies that leave anything for a gate leave more than a call behind it may take. -/
theorem overhead_of_valid (valid : validateStep call = .ok ())
    (positive : 0 < adapterOverheadTgas call.policy) : 25 < adapterOverheadTgas call.policy := by
  cases policy : call.policy with
  | direct =>
      rw [policy] at positive
      exact absurd positive (Nat.lt_irrefl 0)
  | adapter adapterId adapterMethod =>
      show 25 < adapterSequenceOverheadTgas
      decide
  | asserted assertionId assertionMethod assertionArgs expectedReturn assertionGasTgas =>
      simp only [validateStep, validatePolicy, policy, bind_eq_ok, require_eq_ok,
        decide_eq_true_eq] at valid
      obtain ⟨-, -, -, -, -, -, -, ⟨-, -, -, paid, -⟩, -⟩ := valid
      simp only [adapterOverheadTgas, assertedPostcheckRunGasTgas,
        assertedPostcheckEvaluateGasTgas]
      omega

/-- A contract in which the step is registered. -/
def storing (c : Contract) (ns : String) (call : Step) : Machine :=
  ((Machine.init aliceHost alice none).withContract c).storeStep ns call.stepId ⟨0, call, 0⟩

theorem getStep_storing (c : Contract) (ns : String) (call : Step) :
    (storing c ns call).getStep ns call.stepId = some ⟨0, call, 0⟩ :=
  IterableMap.get_insert_self ..

theorem holds_storing (c : Contract) (ns : String) (call : Step) :
    (storing c ns call).Holds ns call := ⟨0, 0, getStep_storing c ns call⟩

theorem resumed_gate {preGate : PreGate} (gated : call.preGate = some preGate) (c : Contract)
    (ns : String) :
    ∃ m', (storing c ns call).runCallback aliceEnv (.onStepResumed ns call.stepId)
      (.successful []) = .ok (m', .promise (gatePromise preGate ns call.stepId call.gasTgas)) := by
  unfold Machine.runCallback Machine.onStepResumed
  simp only [getStep_storing, gated]
  exact ⟨_, rfl⟩

theorem gate_passed {preGate : PreGate} (gated : call.preGate = some preGate) {c : Contract}
    {ns : String} {effective : Step}
    (materialized : c.materializeStepCall ns call = .ok effective) {bytes : Bytes}
    (small : bytes.length ≤ maxCallbackResultBytes)
    (matched : (preGate.evaluate bytes).matched = true) :
    ∃ m' authorizerId, (storing c ns call).runCallback aliceEnv
      (.onPreGateChecked ns call.stepId) (.successful bytes) =
        .ok (m', .promise (resolvedPromise authorizerId ns call.stepId effective)) := by
  have returned : (PromiseResult.successful bytes).checked = .ok bytes := if_pos small
  have filled : ∀ event, ((storing c ns call).emit event).contract.materializeStepCall ns call =
      .ok effective := fun event => materialized
  unfold Machine.runCallback Machine.onPreGateChecked
  simp only [getStep_storing, gated, returned, matched, if_true]
  unfold Machine.materializeAndDispatch
  simp only [filled]
  exact ⟨_, _, rfl⟩

/-- A valid step's callbacks live on what they are given, and so does the authorizer, exactly
where the step has no gate, or one that is paid for out of the policy's overhead and never
lets the call through. -/
theorem gas_conserved_iff {call : Step} (valid : validateStep call = .ok ()) :
    GasConserved call ↔ GateFits call := by
  constructor
  · intro conserved preGate gated
    have paid : preGate.gateGasTgas + 5 ≤ adapterOverheadTgas call.policy := by
      obtain ⟨m', ran⟩ := resumed_gate gated (.newWithOwnerAndAuthorizer alice none) ""
      obtain ⟨fits, -⟩ := conserved "" _ .resumed aliceEnv _ m' _ _ (holds_storing ..) ran
      rw [staticGas_gatePromise] at fits
      simp only [resumeCallbackGas, preGateCheckCallbackGasTgas, stepResolveCallbackGasTgas,
        stepResumeOverheadTgas] at fits
      omega
    refine ⟨paid, ?_⟩
    rintro ⟨⟨bytes, small, matched⟩, c, ns, effective, materialized⟩
    have overhead := overhead_of_valid valid (by omega)
    obtain ⟨m₁, asked⟩ := resumed_gate gated c ns
    have reached : Reached ns call ⟨.onPreGateChecked ns call.stepId,
        preGateCheckCallbackGasTgas + call.gasTgas + stepResolveCallbackGasTgas⟩ :=
      .chained .resumed (holds_storing c ns call) asked List.mem_cons_self
    obtain ⟨m₂, authorizerId, dispatched⟩ := gate_passed gated materialized small matched
    obtain ⟨fits, -⟩ := conserved ns _ reached aliceEnv _ m₂ _ _ (holds_storing ..) dispatched
    rw [staticGas_materialized materialized] at fits
    simp only [preGateCheckCallbackGasTgas] at fits
    omega
  · intro gateFits ns t reached env m m' result p holds ran
    have budgeted := reached.budgeted
    have creates := budgeted.creates holds ran
    exact ⟨budgeted.fits gateFits creates,
      fun a signer predecessor inner forwarded => creates.forwarded forwarded⟩

/-- A direct call without a gate. -/
theorem gas_conserved_iff_plain : GasConserved (plainStep "a") :=
  (gas_conserved_iff (by decide)).mpr fun preGate gated => by cases gated

/-- A direct call of ten TGas behind a gate of five. -/
def gatedTrade : Step := { plainStep "a" with preGate := some {
  gateId := market
  gateMethod := "price"
  gateArgs := []
  minBytes := some []
  maxBytes := none
  comparison := .lexBytes
  gateGasTgas := 5 } }

/-- `on_step_resumed` is given fifty TGas and asks for sixty. -/
theorem gated_step_exceeds_its_gas :
    ¬ ∀ call, validateStep call = .ok () → GasConserved call := by
  intro claim
  have gated : gatedTrade.preGate = some _ := rfl
  obtain ⟨m', ran⟩ := resumed_gate gated (.newWithOwnerAndAuthorizer alice none) ""
  have fits := (claim gatedTrade (by decide) "" _ .resumed aliceEnv _ m' _ _
    (holds_storing ..) ran).1
  revert fits
  decide

end Conservation

end SmartAccount
