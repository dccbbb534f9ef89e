import SmartAccount.State

/-!
# Gas budgets and step validation

The hand-added gas constants of the sequencer, in TGas, and the checks every step
passes before it is registered or saved in a template.  A failed assertion is an
`Except.error` with the contract's message.
-/

namespace SmartAccount

/-! ## Gas constants -/

def stepResolveCallbackGasTgas : Nat := 20
def stepResumeOverheadTgas : Nat := 20
def maxContractGasTgas : Nat := 1000
def stepGasSlackTgas : Nat := 20
def maxStepGasTgas : Nat :=
  maxContractGasTgas - stepResolveCallbackGasTgas - stepResumeOverheadTgas - stepGasSlackTgas
def adapterSequenceOverheadTgas : Nat := 320
def maxAdapterTargetGasTgas : Nat := maxStepGasTgas - adapterSequenceOverheadTgas
def assertedPostcheckRunGasTgas : Nat := 15
def assertedPostcheckEvaluateGasTgas : Nat := 10
def preGateCheckCallbackGasTgas : Nat := 25
def maxPreGateGasTgas : Nat := 100
def authorizerHopOverheadTgas : Nat := 10
def sessionKeyAuthorizerHopGasTgas : Nat := 15

/-- `adapter_overhead_tgas`. -/
def adapterOverheadTgas : StepPolicy → Nat
  | .direct => 0
  | .adapter _ _ => adapterSequenceOverheadTgas
  | .asserted _ _ _ _ assertionGasTgas =>
      assertedPostcheckRunGasTgas + assertedPostcheckEvaluateGasTgas + assertionGasTgas

/-- `max_target_gas_tgas`. -/
def maxTargetGasTgas : StepPolicy → Nat
  | .direct => maxStepGasTgas
  | .adapter _ _ => maxAdapterTargetGasTgas
  | .asserted a m args ret g =>
      maxStepGasTgas - adapterOverheadTgas (.asserted a m args ret g)

/-- The static gas of a registered step's `on_step_resumed`. -/
def resumeCallbackGas (call : Step) : Nat :=
  call.gasTgas + adapterOverheadTgas call.policy + stepResolveCallbackGasTgas +
    stepResumeOverheadTgas

/-! ## Assertions -/

/-- `assert!(condition, message)`. -/
def require (condition : Bool) (message : String) : Except String Unit :=
  if condition then .ok () else .error message

@[simp] theorem require_eq_ok {condition : Bool} {message : String} {u : Unit} :
    require condition message = .ok u ↔ condition = true := by
  unfold require
  split <;> simp_all

theorem require_of {condition : Bool} (holds : condition = true) (message : String) :
    require condition message = .ok () := if_pos holds

theorem require_of_not {condition : Bool} (fails : condition = false) (message : String) :
    require condition message = .error message := by
  rw [fails]
  rfl

/-- A sequence of fallible computations succeeds exactly when both parts do. -/
theorem bind_eq_ok {ε α β : Type} {x : Except ε α} {f : α → Except ε β} {b : β} :
    (x >>= f) = .ok b ↔ ∃ a, x = .ok a ∧ f a = .ok b := by
  cases x with
  | error e => simp [bind, Except.bind]
  | ok a => simp [bind, Except.bind]

/-- It fails where one of them does. -/
theorem bind_eq_error {ε α β : Type} {x : Except ε α} {f : α → Except ε β} {e : ε} :
    (x >>= f) = .error e ↔ x = .error e ∨ ∃ a, x = .ok a ∧ f a = .error e := by
  cases x with
  | error e' => simp [bind, Except.bind]
  | ok a => simp [bind, Except.bind]

theorem map_eq_ok {ε α β : Type} {x : Except ε α} {f : α → β} {b : β} :
    x.map f = .ok b ↔ ∃ a, x = .ok a ∧ f a = b := by
  cases x with
  | error e => simp [Except.map]
  | ok a => simp [Except.map]

/-- `unwrap_or_else(|| panic(message))`. -/
def expect {α : Type} (value : Option α) (message : String) : Except String α :=
  match value with
  | some a => .ok a
  | none => .error message

@[simp] theorem expect_eq_ok {α : Type} {value : Option α} {message : String} {a : α} :
    expect value message = .ok a ↔ value = some a := by
  unfold expect
  split <;> simp_all

/-! ## Steps -/

/-- The checks of `validate_step` on the policy's own fields. -/
def validatePolicy : StepPolicy → Except String Unit
  | .direct => .ok ()
  | .adapter _ adapterMethod =>
      require (adapterMethod ≠ "") "adapter_method cannot be empty"
  | .asserted _ assertionMethod _ _ assertionGasTgas => do
      require (assertionMethod ≠ "") "assertion_method cannot be empty"
      require (0 < assertionGasTgas) "assertion_gas_tgas must be greater than zero"
      require (assertionGasTgas ≤ maxStepGasTgas)
        "assertion_gas_tgas exceeds per-step gas cap"

/-- The checks of `validate_step` on a gate. -/
def validatePreGate (preGate : PreGate) : Except String Unit := do
  require (preGate.gateMethod ≠ "") "pre_gate.gate_method cannot be empty"
  require (0 < preGate.gateGasTgas) "pre_gate.gate_gas_tgas must be greater than zero"
  require (preGate.gateGasTgas ≤ maxPreGateGasTgas)
    "pre_gate.gate_gas_tgas exceeds the per-gate gas cap"
  require (preGate.minBytes.isSome || preGate.maxBytes.isSome)
    "pre_gate must declare at least one of min_bytes or max_bytes"

def validateStep (call : Step) : Except String Unit := do
  require (call.stepId ≠ "") "step_id cannot be empty"
  require (call.methodName ≠ "") "method_name cannot be empty"
  require (0 < call.gasTgas) "gas_tgas must be greater than zero"
  validatePolicy call.policy
  require (call.gasTgas ≤ maxTargetGasTgas call.policy)
    "gas_tgas is too large for this resolution policy"
  match call.preGate with
  | none => .ok ()
  | some preGate => validatePreGate preGate

/-- The checks of `validate_step` on a policy's fields, apart from the cap on its gas. -/
def StepPolicy.FieldsOk : StepPolicy → Prop
  | .direct => True
  | .adapter _ adapterMethod => adapterMethod ≠ ""
  | .asserted _ assertionMethod _ _ assertionGasTgas =>
      assertionMethod ≠ "" ∧ 0 < assertionGasTgas

/-- The checks of `validate_step`, apart from the caps on the step's gas. -/
structure Step.FieldsOk (call : Step) : Prop where
  stepId : call.stepId ≠ ""
  methodName : call.methodName ≠ ""
  gasTgas : 0 < call.gasTgas
  policy : call.policy.FieldsOk
  preGate : ∀ preGate ∈ call.preGate, validatePreGate preGate = .ok ()

/-- The caps of `validate_step`: on the assertion's gas, then on the step's. -/
def StepPolicy.CapsHold (gasTgas : Nat) : StepPolicy → Prop
  | .asserted assertionId assertionMethod assertionArgs expectedReturn assertionGasTgas =>
      assertionGasTgas ≤ maxStepGasTgas ∧
        gasTgas ≤ maxTargetGasTgas (.asserted assertionId assertionMethod assertionArgs
          expectedReturn assertionGasTgas)
  | policy => gasTgas ≤ maxTargetGasTgas policy

theorem validatePolicy_eq_ok {policy : StepPolicy} {gasTgas : Nat} :
    validatePolicy policy = .ok () ∧ gasTgas ≤ maxTargetGasTgas policy ↔
      policy.FieldsOk ∧ policy.CapsHold gasTgas := by
  cases policy with
  | direct => exact and_congr_left fun _ => iff_of_true rfl trivial
  | adapter adapterId adapterMethod =>
      simp [validatePolicy, StepPolicy.FieldsOk, StepPolicy.CapsHold]
  | asserted assertionId assertionMethod assertionArgs expectedReturn assertionGasTgas =>
      simp [validatePolicy, StepPolicy.FieldsOk, StepPolicy.CapsHold, bind_eq_ok, and_assoc]

/-- A step is valid when its fields are and it keeps under the caps. -/
theorem validateStep_eq_ok {call : Step} :
    validateStep call = .ok () ↔ call.FieldsOk ∧ call.policy.CapsHold call.gasTgas := by
  have gate : (match call.preGate with
      | none => (.ok () : Except String Unit)
      | some preGate => validatePreGate preGate) = .ok () ↔
        ∀ preGate ∈ call.preGate, validatePreGate preGate = .ok () := by
    cases call.preGate <;> simp
  simp only [validateStep, bind_eq_ok, require_eq_ok, decide_eq_true_eq, exists_const]
  constructor
  · rintro ⟨stepId, methodName, gasTgas, _, policy, cap, preGate⟩
    obtain ⟨fields, caps⟩ := validatePolicy_eq_ok.mp ⟨policy, cap⟩
    exact ⟨⟨stepId, methodName, gasTgas, fields, gate.mp preGate⟩, caps⟩
  · rintro ⟨⟨stepId, methodName, gasTgas, fields, preGate⟩, caps⟩
    obtain ⟨policy, cap⟩ := validatePolicy_eq_ok.mpr ⟨fields, caps⟩
    exact ⟨stepId, methodName, gasTgas, (), policy, cap, gate.mpr preGate⟩

/-- A valid step asks for gas. -/
theorem validateStep_gas {call : Step} (valid : validateStep call = .ok ()) :
    0 < call.gasTgas := (validateStep_eq_ok.mp valid).1.gasTgas

/-- `step_from_raw`: the step itself, once it is valid. -/
def stepFromRaw (input : StepInput) : Except String Step := do
  validateStep input
  .ok input

theorem stepFromRaw_eq_ok {input call : Step} :
    stepFromRaw input = .ok call ↔ validateStep input = .ok () ∧ call = input := by
  simp only [stepFromRaw, bind_eq_ok, Except.ok.injEq]
  constructor
  · rintro ⟨⟨⟩, valid, rfl⟩
    exact ⟨valid, rfl⟩
  · rintro ⟨valid, rfl⟩
    exact ⟨(), valid, rfl⟩

/-- The loop of `validate_sequence_template_inputs`, with the ids seen so far. -/
def validateTemplateFrom (seen : List String) (total : Nat) :
    List StepInput → Except String (List Step × Nat)
  | [] => .ok ([], total)
  | input :: rest => do
      let validated ← stepFromRaw input
      require (validated.stepId ∉ seen) "sequence template step IDs must be unique"
      require (total + validated.attachedDepositYocto < 2 ^ 128)
        "template attached deposit overflow"
      let (calls, sum) ← validateTemplateFrom (validated.stepId :: seen)
        (total + validated.attachedDepositYocto) rest
      .ok (validated :: calls, sum)

/-- `validate_sequence_template_inputs`. -/
def validateSequenceTemplateInputs (calls : List StepInput) : Except String (List Step × Nat) :=
  validateTemplateFrom [] 0 calls

/-- A validated template keeps its calls, each valid, under distinct ids unseen so far. -/
theorem validateTemplateFrom_eq_ok {seen : List String} {total : Nat} {inputs calls : List Step}
    {sum : Nat} (accepted : validateTemplateFrom seen total inputs = .ok (calls, sum)) :
    calls = inputs ∧ (∀ call ∈ calls, validateStep call = .ok ()) ∧
      (calls.map Step.stepId).Nodup ∧ (∀ call ∈ calls, call.stepId ∉ seen) := by
  induction inputs generalizing seen total calls sum with
  | nil =>
      simp only [validateTemplateFrom, Except.ok.injEq, Prod.mk.injEq] at accepted
      obtain ⟨rfl, -⟩ := accepted
      simp
  | cons input rest ih =>
      simp only [validateTemplateFrom, bind_eq_ok, stepFromRaw_eq_ok, require_eq_ok,
        decide_eq_true_eq, Except.ok.injEq, Prod.mk.injEq] at accepted
      obtain ⟨_, ⟨valid, rfl⟩, _, fresh, _, _, ⟨tail, _⟩, looped, rfl, -⟩ := accepted
      obtain ⟨rfl, valids, distinct, unseen⟩ := ih looped
      refine ⟨rfl, ?_, ?_, ?_⟩
      · simpa using ⟨valid, valids⟩
      · rw [List.map_cons, List.nodup_cons]
        refine ⟨fun member => ?_, distinct⟩
        obtain ⟨call, inside, same⟩ := List.mem_map.mp member
        exact unseen call inside (same ▸ List.mem_cons_self ..)
      · intro call member
        rcases List.mem_cons.mp member with rfl | inside
        · exact fresh
        · exact fun known => unseen call inside (List.mem_cons_of_mem _ known)

end SmartAccount
