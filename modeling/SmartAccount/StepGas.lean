import SmartAccount.Foundation.Checked
import SmartAccount.Sequencer

/-!
# The gas arithmetic of a step

The contract is built with overflow checks, so that a `u64` sum or difference that does not fit
is a panic.  The functions that compute with a step's gas stand here with these checks, for
gas values of any size.  `validate_step` looks at the assertion's gas before it adds to it, and
what it accepts leaves the slack of the registration under the contract's ceiling
(`validateStep_tight`).
-/

namespace SmartAccount

open Foundation

namespace Checked

/-- `u64 + u64`. -/
abbrev add (a b : Nat) : Except (Stop String) Nat := checkedAdd 64 a b

/-! ## The functions with their checks -/

/-- `MAX_STEP_GAS_TGAS`. -/
def maxStepGasTgas : Except (Stop String) Nat := do
  let resolved ← checkedSub maxContractGasTgas stepResolveCallbackGasTgas
  let resumed ← checkedSub resolved stepResumeOverheadTgas
  checkedSub resumed stepGasSlackTgas

/-- `MAX_ADAPTER_TARGET_GAS_TGAS`. -/
def maxAdapterTargetGasTgas : Except (Stop String) Nat := do
  checkedSub (← maxStepGasTgas) adapterSequenceOverheadTgas

/-- `adapter_overhead_tgas`. -/
def adapterOverheadTgas : StepPolicy → Except (Stop String) Nat
  | .direct => .ok 0
  | .adapter _ _ => .ok adapterSequenceOverheadTgas
  | .asserted _ _ _ _ assertionGasTgas => do
      add (← add assertedPostcheckRunGasTgas assertedPostcheckEvaluateGasTgas) assertionGasTgas

/-- `max_target_gas_tgas`, with its `saturating_sub`. -/
def maxTargetGasTgas (policy : StepPolicy) : Except (Stop String) Nat :=
  match policy with
  | .direct => maxStepGasTgas
  | .adapter _ _ => maxAdapterTargetGasTgas
  | .asserted _ _ _ _ _ => do
      let cap ← maxStepGasTgas
      let overhead ← adapterOverheadTgas policy
      .ok (cap - overhead)

/-- `validate_step`. -/
def validateStep (call : Step) : Except (Stop String) Unit := do
  exactly (require (call.stepId ≠ "") "step_id cannot be empty")
  exactly (require (call.methodName ≠ "") "method_name cannot be empty")
  exactly (require (0 < call.gasTgas) "gas_tgas must be greater than zero")
  exactly (validatePolicy call.policy)
  let cap ← maxTargetGasTgas call.policy
  exactly (require (call.gasTgas ≤ cap) "gas_tgas is too large for this resolution policy")
  match call.preGate with
  | none => .ok ()
  | some preGate => exactly (validatePreGate preGate)

/-- The `resume_callback_gas` of `register_step_in_namespace`. -/
def resumeCallbackGas (call : Step) : Except (Stop String) Nat := do
  let target ← add call.gasTgas (← adapterOverheadTgas call.policy)
  let resolved ← add target stepResolveCallbackGasTgas
  add resolved stepResumeOverheadTgas

/-- `register_step_in_namespace`. -/
def registerStepInNamespace (env : Env) (m : Machine) (ns : String) (call : Step) :
    Except (Stop String) Machine := do
  exactly (require (m.getStep ns call.stepId).isNone "step_id already yielded for this sequence")
  let gas ← resumeCallbackGas call
  let (m', yieldId) := m.newYield ⟨.onStepResumed ns call.stepId, gas + env.spareGas⟩
  .ok (((m'.storeStep ns call.stepId ⟨yieldId, call, env.now⟩).note
    (.registered ns yieldId call (gas + env.spareGas))).emit
      (.stepRegistered call.stepId ns env.now gas call.metadataFull))

/-- `build_call_promise`. -/
def buildCallPromise (authorizerId : Option AccountId) (targetId : AccountId)
    (methodName : String) (args : CallArgs) (attachedDepositYocto gasTgas : Nat) :
    Except (Stop String) Promise :=
  match authorizerId with
  | some auth => do
      let hop ← add gasTgas authorizerHopOverheadTgas
      .ok ⟨⟨auth, "dispatch", .dispatch targetId methodName args gasTgas, attachedDepositYocto,
        hop⟩, []⟩
  | none => .ok ⟨⟨targetId, methodName, args, attachedDepositYocto, gasTgas⟩, []⟩

/-- `dispatch_promise_for_call`. -/
def dispatchPromiseForCall (authorizerId : Option AccountId) (sequenceNamespace : String)
    (call : Step) : Except (Stop String) Promise :=
  match call.policy with
  | .direct =>
      buildCallPromise authorizerId call.targetId call.methodName (.raw call.args)
        call.attachedDepositYocto call.gasTgas
  | .adapter adapterId adapterMethod => do
      let gas ← add call.gasTgas adapterSequenceOverheadTgas
      buildCallPromise authorizerId adapterId adapterMethod
        (.adapterCall call.adapterDispatchInput) call.attachedDepositYocto gas
  | .asserted assertionId assertionMethod assertionArgs expectedReturn assertionGasTgas => do
      let target ← buildCallPromise authorizerId call.targetId call.methodName (.raw call.args)
        call.attachedDepositYocto call.gasTgas
      let gas ← add (← add assertedPostcheckRunGasTgas assertionGasTgas)
        assertedPostcheckEvaluateGasTgas
      .ok (target.andThen
        ⟨.onAssertedRunPostcheck sequenceNamespace call.stepId assertionId assertionMethod
          assertionArgs expectedReturn assertionGasTgas, gas⟩)

end Checked

/-! ## The caps -/

theorem maxStepGasTgas_eq : maxStepGasTgas = 940 := rfl

/-- With some gas to spend, the caps are the budget of `on_step_resumed`.  A cap that saturates
to zero leaves the step nothing to ask for. -/
theorem capsHold_iff {gasTgas : Nat} {policy : StepPolicy} (positive : 0 < gasTgas) :
    policy.CapsHold gasTgas ↔ gasTgas + adapterOverheadTgas policy + 40 ≤ 980 := by
  cases policy with
  | direct =>
      show gasTgas ≤ maxStepGasTgas ↔ gasTgas + 0 + 40 ≤ 980
      rw [maxStepGasTgas_eq]
      omega
  | adapter adapterId adapterMethod =>
      have cap : maxAdapterTargetGasTgas = 620 := rfl
      show gasTgas ≤ maxAdapterTargetGasTgas ↔ gasTgas + 320 + 40 ≤ 980
      rw [cap]
      omega
  | asserted assertionId assertionMethod assertionArgs expectedReturn assertionGasTgas =>
      have reserved : assertedPostcheckRunGasTgas + assertedPostcheckEvaluateGasTgas = 25 := rfl
      rw [StepPolicy.CapsHold, maxTargetGasTgas, adapterOverheadTgas, maxStepGasTgas_eq, reserved]
      omega

/-! ## No sum overflows -/

namespace Checked

theorem maxStepGasTgas_exact : maxStepGasTgas = .ok SmartAccount.maxStepGasTgas := rfl

theorem add_exact {a b : Nat} (small : a + b < 2 ^ 64) : add a b = .ok (a + b) :=
  checkedAdd_of_lt small

theorem adapterOverheadTgas_exact {policy : StepPolicy}
    (small : SmartAccount.adapterOverheadTgas policy < 2 ^ 64) :
    adapterOverheadTgas policy = .ok (SmartAccount.adapterOverheadTgas policy) := by
  cases policy with
  | direct => rfl
  | adapter adapterId adapterMethod => rfl
  | asserted assertionId assertionMethod assertionArgs expectedReturn assertionGasTgas =>
      exact add_exact small

/-- The policy was checked before the cap is computed: an assertion's gas keeps to its own cap. -/
theorem adapterOverheadTgas_le {policy : StepPolicy} (valid : validatePolicy policy = .ok ()) :
    SmartAccount.adapterOverheadTgas policy ≤ 965 := by
  cases policy with
  | direct => exact Nat.zero_le _
  | adapter adapterId adapterMethod => exact (by decide : 320 ≤ 965)
  | asserted assertionId assertionMethod assertionArgs expectedReturn assertionGasTgas =>
      simp only [validatePolicy, bind_eq_ok, require_eq_ok, decide_eq_true_eq] at valid
      obtain ⟨-, -, -, -, cap⟩ := valid
      exact Nat.add_le_add_left cap 25

theorem maxTargetGasTgas_exact {policy : StepPolicy} (valid : validatePolicy policy = .ok ()) :
    maxTargetGasTgas policy = .ok (SmartAccount.maxTargetGasTgas policy) := by
  have overhead := adapterOverheadTgas_exact
    (Nat.lt_of_le_of_lt (adapterOverheadTgas_le valid) (by decide))
  cases policy with
  | direct => rfl
  | adapter adapterId adapterMethod => rfl
  | asserted assertionId assertionMethod assertionArgs expectedReturn assertionGasTgas =>
      rw [maxTargetGasTgas, maxStepGasTgas_exact, overhead]
      rfl

/-- `validate_step` never overflows, whatever the step asks for. -/
theorem validateStep_exact (call : Step) :
    validateStep call = exactly (SmartAccount.validateStep call) := by
  unfold validateStep SmartAccount.validateStep
  refine exactly_bind fun _ _ => exactly_bind fun _ _ => exactly_bind fun _ _ =>
    exactly_bind fun _ policy => ?_
  rw [maxTargetGasTgas_exact policy]
  refine exactly_bind fun _ _ => ?_
  cases call.preGate <;> rfl

section Budget

variable {call : Step}

theorem resumeCallbackGas_eq (call : Step) : SmartAccount.resumeCallbackGas call =
    call.gasTgas + SmartAccount.adapterOverheadTgas call.policy + 40 :=
  Nat.add_assoc _ 20 20

theorem resumeCallbackGas_exact (small : SmartAccount.resumeCallbackGas call < 2 ^ 64) :
    resumeCallbackGas call = .ok (SmartAccount.resumeCallbackGas call) := by
  unfold SmartAccount.resumeCallbackGas at small ⊢
  have resolved := Nat.lt_of_add_right_lt small
  have target := Nat.lt_of_add_right_lt resolved
  have overhead := adapterOverheadTgas_exact (Nat.lt_of_add_left_lt target)
  calc resumeCallbackGas call
      = (add call.gasTgas (SmartAccount.adapterOverheadTgas call.policy) >>= fun target =>
          add target stepResolveCallbackGasTgas >>= fun resolved =>
            add resolved stepResumeOverheadTgas) := by rw [resumeCallbackGas, overhead]; rfl
    _ = (add (call.gasTgas + SmartAccount.adapterOverheadTgas call.policy)
          stepResolveCallbackGasTgas >>= fun resolved => add resolved stepResumeOverheadTgas) := by
        rw [add_exact target]; rfl
    _ = add (call.gasTgas + SmartAccount.adapterOverheadTgas call.policy +
          stepResolveCallbackGasTgas) stepResumeOverheadTgas := by rw [add_exact resolved]; rfl
    _ = _ := add_exact small

/-- Registering such a step panics only where its id is taken. -/
theorem registerStepInNamespace_exact (small : SmartAccount.resumeCallbackGas call < 2 ^ 64)
    (env : Env) (m : Machine) (ns : String) :
    registerStepInNamespace env m ns call = exactly (m.registerStepInNamespace env ns call) := by
  refine exactly_bind fun _ _ => ?_
  rw [resumeCallbackGas_exact small]
  rfl

theorem buildCallPromise_exact {gasTgas : Nat} (authorizerId : Option AccountId)
    (targetId : AccountId) (methodName : String) (args : CallArgs) (attachedDepositYocto : Nat)
    (small : gasTgas + authorizerHopOverheadTgas < 2 ^ 64) :
    buildCallPromise authorizerId targetId methodName args attachedDepositYocto gasTgas =
      .ok (SmartAccount.buildCallPromise authorizerId targetId methodName args
        attachedDepositYocto gasTgas) := by
  cases authorizerId with
  | none => rfl
  | some auth =>
      rw [buildCallPromise, add_exact small]
      rfl

theorem dispatchPromiseForCall_exact (small : SmartAccount.resumeCallbackGas call < 2 ^ 64)
    (authorizerId : Option AccountId) (ns : String) :
    dispatchPromiseForCall authorizerId ns call =
      .ok (SmartAccount.dispatchPromiseForCall authorizerId ns call) := by
  rw [resumeCallbackGas_eq] at small
  unfold dispatchPromiseForCall SmartAccount.dispatchPromiseForCall
  have hop : authorizerHopOverheadTgas = 10 := rfl
  cases policy : call.policy with
  | direct => exact buildCallPromise_exact _ _ _ _ _ (by omega)
  | adapter adapterId adapterMethod =>
      have overhead : SmartAccount.adapterOverheadTgas call.policy =
        adapterSequenceOverheadTgas := by rw [policy]; rfl
      simp only [@add_exact call.gasTgas adapterSequenceOverheadTgas (by omega)]
      exact buildCallPromise_exact _ _ _ _ _ (by omega)
  | asserted assertionId assertionMethod assertionArgs expectedReturn assertionGasTgas =>
      have overhead : SmartAccount.adapterOverheadTgas call.policy =
        assertedPostcheckRunGasTgas + assertedPostcheckEvaluateGasTgas + assertionGasTgas := by
          rw [policy]; rfl
      have run := @add_exact assertedPostcheckRunGasTgas assertionGasTgas (by omega)
      have postcheck := @add_exact (assertedPostcheckRunGasTgas + assertionGasTgas)
        assertedPostcheckEvaluateGasTgas (by omega)
      have target := @buildCallPromise_exact call.gasTgas authorizerId call.targetId
        call.methodName (.raw call.args) call.attachedDepositYocto (by omega)
      simp only [target, run, bind, Except.bind, postcheck]

end Budget

end Checked

/-- A valid step fits under the ceiling with the slack of its registration, and nothing that is
computed from its gas overflows, also once its arguments are materialized.  What keeps to that
budget is valid if its other fields are. -/
theorem validateStep_tight (call : Step) :
    (∀ operation, Checked.validateStep call ≠ .error (.overflow operation)) ∧
      (Checked.validateStep call = .ok () ↔
        call.FieldsOk ∧ call.gasTgas + adapterOverheadTgas call.policy + 40 ≤ 980) ∧
      (Checked.validateStep call = .ok () →
        Checked.adapterOverheadTgas call.policy = .ok (adapterOverheadTgas call.policy) ∧
        Checked.maxTargetGasTgas call.policy = .ok (maxTargetGasTgas call.policy) ∧
        Checked.resumeCallbackGas call = .ok (resumeCallbackGas call) ∧
        resumeCallbackGas call + stepGasSlackTgas ≤ maxContractGasTgas ∧
        (∀ env m ns, Checked.registerStepInNamespace env m ns call =
          exactly (m.registerStepInNamespace env ns call)) ∧
        ∀ authorizerId ns args, Checked.dispatchPromiseForCall authorizerId ns
          { call with args := args } =
            .ok (dispatchPromiseForCall authorizerId ns { call with args := args })) := by
  have accepted : Checked.validateStep call = .ok () ↔ validateStep call = .ok () := by
    rw [Checked.validateStep_exact, exactly_eq_ok]
  have tight : validateStep call = .ok () ↔
      call.FieldsOk ∧ call.gasTgas + adapterOverheadTgas call.policy + 40 ≤ 980 := by
    rw [validateStep_eq_ok]
    exact and_congr_right fun fields => capsHold_iff fields.gasTgas
  refine ⟨fun operation => ?_, accepted.trans tight, fun valid => ?_⟩
  · rw [Checked.validateStep_exact]
    exact exactly_ne_overflow _ operation
  · obtain ⟨fields, budget⟩ := tight.mp (accepted.mp valid)
    rw [← Checked.resumeCallbackGas_eq] at budget
    have small : resumeCallbackGas call < 2 ^ 64 := Nat.lt_of_le_of_lt budget (by decide)
    have policy := (validatePolicy_eq_ok.mpr
      ⟨fields.policy, (validateStep_eq_ok.mp (accepted.mp valid)).2⟩).1
    refine ⟨?_, Checked.maxTargetGasTgas_exact policy, Checked.resumeCallbackGas_exact small, ?_,
      Checked.registerStepInNamespace_exact small, fun authorizerId ns args => ?_⟩
    · refine Checked.adapterOverheadTgas_exact ?_
      exact Nat.lt_of_le_of_lt (Checked.adapterOverheadTgas_le policy) (by decide)
    · exact Nat.add_le_add_right budget stepGasSlackTgas
    · exact @Checked.dispatchPromiseForCall_exact { call with args := args } small authorizerId ns

end SmartAccount
