import SmartAccount.Sequencer

/-!
# The sequencer's callbacks

The five private callbacks.  Each takes the outcome of the promise it is chained to
and returns the machine with its changes and what it hands on: a value, or a promise
that takes its place in the chain.  A panic is an `Except.error`.
-/

namespace SmartAccount

open Foundation

/-- Materialization changes nothing but the arguments. -/
theorem materializeStepCall_ok {c : Contract} {ns : String} {call effective : Step}
    (materialized : c.materializeStepCall ns call = .ok effective) :
    effective = { call with args := effective.args } := by
  unfold Contract.materializeStepCall at materialized
  split at materialized
  · cases materialized
    rfl
  · obtain ⟨bytes, -, eq⟩ := bind_eq_ok.mp materialized
    cases eq
    rfl

/-- A panicking callback, with the events it logged before it panicked. -/
structure Panic where
  message : String
  logged : List Event := []

namespace Machine

/-! ## Halting -/

/-- What every halt path does: drop the step, the queue and the saved results, close
the automation run, and say why. -/
def haltSequence (env : Env) (m : Machine) (ns stepId : String) (status : AutomationRunStatus)
    (data : HaltData) : Machine :=
  (finishAutomationRun env (((m.removeStep ns stepId).removeQueue ns).clearContext ns) ns status
    (some stepId)).emit (.sequenceHalted data)

/-- The Err branch of `on_step_resumed`. -/
def haltOnTimeout (env : Env) (m : Machine) (ns stepId : String) (yielded : RegisteredStep)
    (error : PromiseError) : Machine :=
  haltSequence env m ns stepId .resumeFailed {
    sequenceNamespace := ns
    failedStepId := stepId
    reason := "resume_failed"
    errorKind := "resume_failed"
    errorMsg := error.debug
    registeredAtMs := some yielded.createdAtMs
    haltLatencyMs := some (env.now - yielded.createdAtMs)
    call := some yielded.call.metadata }

/-- `halt_sequence_on_pre_gate_failure`. -/
def haltSequenceOnPreGateFailure (env : Env) (m : Machine) (ns stepId : String)
    (registeredAtMs : Nat) (reason : String) : Machine :=
  haltSequence env m ns stepId .downstreamFailed {
    sequenceNamespace := ns
    failedStepId := stepId
    reason := "pre_gate_failed"
    errorKind := "pre_gate_" ++ reason
    errorMsg := "pre_gate halted: " ++ reason
    registeredAtMs := some registeredAtMs
    haltLatencyMs := some (env.now - registeredAtMs)
    call := (m.getStep ns stepId).map fun yielded => yielded.call.metadata }

/-- `halt_sequence_on_materialize_failure`. -/
def haltSequenceOnMaterializeFailure (env : Env) (m : Machine) (ns stepId : String)
    (registeredAtMs : Nat) (err : MaterializeError) : Machine :=
  haltSequence env m ns stepId .downstreamFailed {
    sequenceNamespace := ns
    failedStepId := stepId
    reason := "args_materialize_failed"
    errorKind := "args_materialize_" ++ err.kindTag
    errorMsg := err.display
    registeredAtMs := some registeredAtMs
    haltLatencyMs := some (env.now - registeredAtMs)
    call := (m.getStep ns stepId).map fun yielded => yielded.call.metadata }

/-! ## Dispatch -/

/-- Materialize a released step's arguments and dispatch its call, or halt. -/
def materializeAndDispatch (env : Env) (m : Machine) (ns stepId : String)
    (yielded : RegisteredStep) : Machine × PromiseOrValue :=
  match m.contract.materializeStepCall ns yielded.call with
  | .error err =>
      (haltSequenceOnMaterializeFailure env m ns stepId yielded.createdAtMs err, unitValue)
  | .ok effective =>
      (m.note (.dispatched ns stepId yielded.yieldId yielded.call effective.args),
        .promise (resolvedPromise m.contract.authorizerId ns stepId effective))

/-! ## The callbacks -/

def onStepResumed (env : Env) (m : Machine) (ns stepId : String) (resumeSignal : PromiseResult) :
    Machine × PromiseOrValue :=
  match m.getStep ns stepId with
  | none => (m, unitValue)
  | some yielded =>
      match resumeSignal with
      | .failed => (haltOnTimeout env m ns stepId yielded .failed, unitValue)
      | .successful _ =>
          let resumed := m.emit (.stepResumed stepId ns yielded.createdAtMs
            (env.now - yielded.createdAtMs) yielded.call.metadata)
          match yielded.call.preGate with
          | some preGate =>
              (resumed, .promise (gatePromise preGate ns stepId yielded.call.gasTgas))
          | none => materializeAndDispatch env resumed ns stepId yielded

/-- The `pre_gate_checked` event. -/
def preGateCheckedEvent (ns stepId outcome : String) (matched : Bool) (preGate : PreGate)
    (actual : Except PromiseError Bytes) (call : Step) : Event :=
  .preGateChecked {
    stepId := stepId
    sequenceNamespace := ns
    outcome := outcome
    matched := matched
    expectedMinBytesLen := preGate.minBytes.map List.length
    expectedMaxBytesLen := preGate.maxBytes.map List.length
    actualBytesLen := match actual with | .ok bytes => bytes.length | .error _ => 0
    actualReturn := match actual with | .ok bytes => some bytes | .error _ => none
    comparison := preGate.comparison.tag
    error := match actual with | .ok _ => none | .error error => some error
    call := call.metadataFull }

def onPreGateChecked (env : Env) (m : Machine) (ns stepId : String) (result : PromiseResult) :
    Machine × PromiseOrValue :=
  match m.getStep ns stepId with
  | none => (m, unitValue)
  | some yielded =>
      match yielded.call.preGate with
      | none => (m, unitValue)
      | some preGate =>
          match result.checked with
          | .error error =>
              let checked := m.emit (preGateCheckedEvent ns stepId "gate_panicked" false preGate
                (.error error) yielded.call)
              (haltSequenceOnPreGateFailure env checked ns stepId yielded.createdAtMs
                "gate_panicked", unitValue)
          | .ok bytes =>
              let outcome := preGate.evaluate bytes
              let checked := m.emit (preGateCheckedEvent ns stepId outcome.outcomeTag
                outcome.matched preGate (.ok bytes) yielded.call)
              if outcome.matched then materializeAndDispatch env checked ns stepId yielded
              else
                (haltSequenceOnPreGateFailure env checked ns stepId yielded.createdAtMs
                  outcome.outcomeTag, unitValue)

def onAssertedRunPostcheck (ns stepId : String) (assertionId : AccountId)
    (assertionMethod : String) (assertionArgs expectedReturn : Bytes) (assertionGasTgas : Nat)
    (result : PromiseResult) : Except Panic Promise :=
  match result.checked with
  | .error error =>
      .error { message := "asserted step '" ++ stepId ++ "' in " ++ ns ++
        ": target failed before postcheck could run: " ++ error.debug }
  | .ok _ =>
      .ok ⟨⟨assertionId, assertionMethod, .raw assertionArgs, 0, assertionGasTgas⟩,
        [⟨.onAssertedEvaluatePostcheck ns stepId expectedReturn,
          assertedPostcheckEvaluateGasTgas⟩]⟩

theorem onAssertedRunPostcheck_ok {ns stepId : String} {assertionId : AccountId}
    {assertionMethod : String} {assertionArgs expectedReturn : Bytes} {assertionGasTgas : Nat}
    {result : PromiseResult} {p : Promise}
    (posted : onAssertedRunPostcheck ns stepId assertionId assertionMethod assertionArgs
      expectedReturn assertionGasTgas result = .ok p) :
    (∃ bytes, result.checked = .ok bytes) ∧
      p = ⟨⟨assertionId, assertionMethod, .raw assertionArgs, 0, assertionGasTgas⟩,
        [⟨.onAssertedEvaluatePostcheck ns stepId expectedReturn,
          assertedPostcheckEvaluateGasTgas⟩]⟩ := by
  unfold onAssertedRunPostcheck at posted
  split at posted
  · cases posted
  · rename_i bytes small
    cases posted
    exact ⟨⟨bytes, small⟩, rfl⟩

/-- Where the target failed, nothing is logged. -/
theorem onAssertedRunPostcheck_error {ns stepId : String} {assertionId : AccountId}
    {assertionMethod : String} {assertionArgs expectedReturn : Bytes} {assertionGasTgas : Nat}
    {result : PromiseResult} {panic : Panic}
    (failed : onAssertedRunPostcheck ns stepId assertionId assertionMethod assertionArgs
      expectedReturn assertionGasTgas result = .error panic) : panic.logged = [] := by
  unfold onAssertedRunPostcheck at failed
  split at failed
  · cases failed
    rfl
  · cases failed

/-- The `assertion_checked` event. -/
def assertionCheckedEvent (m : Machine) (ns stepId outcome : String) (matched : Bool)
    (expectedReturn : Bytes) (actual : Except PromiseError Bytes) : Event :=
  .assertionChecked {
    stepId := stepId
    sequenceNamespace := ns
    expectedReturn := expectedReturn
    actualBytesLen := match actual with | .ok bytes => bytes.length | .error _ => 0
    actualReturn := match actual with | .ok bytes => some bytes | .error _ => none
    matched := matched
    outcome := outcome
    error := match actual with | .ok _ => none | .error error => some error
    call := (m.getStep ns stepId).map fun yielded => yielded.call.metadataFull }

def onAssertedEvaluatePostcheck (m : Machine) (ns stepId : String) (expectedReturn : Bytes)
    (result : PromiseResult) : Except Panic Machine :=
  match result.checked with
  | .error error =>
      .error {
        message := "asserted step '" ++ stepId ++ "' in " ++ ns ++ ": postcheck call failed: " ++
          error.debug
        logged := [assertionCheckedEvent m ns stepId "postcheck_failed" false expectedReturn
          (.error error)] }
  | .ok bytes =>
      if bytes ≠ expectedReturn then
        .error {
          message := "asserted step '" ++ stepId ++ "' in " ++ ns ++ ": postcheck mismatch"
          logged := [assertionCheckedEvent m ns stepId "mismatch" false expectedReturn
            (.ok bytes)] }
      else
        .ok (m.emit (assertionCheckedEvent m ns stepId "matched" true expectedReturn
          (.ok bytes)))

theorem onAssertedEvaluatePostcheck_ok {m m' : Machine} {ns stepId : String}
    {expectedReturn : Bytes} {result : PromiseResult}
    (evaluated : m.onAssertedEvaluatePostcheck ns stepId expectedReturn result = .ok m') :
    result.checked = .ok expectedReturn ∧
      m' = m.emit (assertionCheckedEvent m ns stepId "matched" true expectedReturn
        (.ok expectedReturn)) := by
  unfold onAssertedEvaluatePostcheck at evaluated
  split at evaluated
  · cases evaluated
  · rename_i bytes small
    split at evaluated
    · cases evaluated
    · rename_i equal
      obtain rfl := not_not.mp equal
      cases evaluated
      exact ⟨small, rfl⟩

/-- A postcheck that fails or does not match logs why. -/
theorem onAssertedEvaluatePostcheck_error {m : Machine} {ns stepId : String}
    {expectedReturn : Bytes} {result : PromiseResult} {panic : Panic}
    (failed : m.onAssertedEvaluatePostcheck ns stepId expectedReturn result = .error panic) :
    ∃ outcome actual, panic.logged =
      [assertionCheckedEvent m ns stepId outcome false expectedReturn actual] := by
  unfold onAssertedEvaluatePostcheck at failed
  split at failed
  · cases failed
    exact ⟨_, _, rfl⟩
  · split at failed
    · cases failed
      exact ⟨_, _, rfl⟩
    · cases failed

/-- Save a resolved step's result where the step asked for it. -/
def saveIfAsked (m : Machine) (ns stepId : String) (saveSpec : Option SaveResult)
    (bytes : Bytes) : Machine :=
  match saveSpec with
  | some spec => m.saveStepResult ns stepId spec bytes
  | none => m

def onStepResolved (env : Env) (m : Machine) (ns stepId : String) (result : PromiseResult) :
    Machine :=
  let yielded := m.getStep ns stepId
  let callMetadata := yielded.map fun y => y.call.metadata
  let registeredAtMs := (yielded.map RegisteredStep.createdAtMs).getD 0
  let removed := m.removeStep ns stepId
  match result.checked with
  | .ok bytes =>
      let saved := removed.saveIfAsked ns stepId (yielded.bind fun y => y.call.saveResult) bytes
      progressSequenceAfterSuccessfulResolution env saved ns stepId bytes.length callMetadata
        registeredAtMs
  | .error error =>
      (finishAutomationRun env ((removed.removeQueue ns).clearContext ns) ns .downstreamFailed
        (some stepId)).emit
          (.stepResolvedErr stepId ns error registeredAtMs (env.now - registeredAtMs)
            callMetadata)

/-- Run one callback on the outcome it was waiting for. -/
def runCallback (env : Env) (m : Machine) (callback : Callback) (result : PromiseResult) :
    Except Panic (Machine × PromiseOrValue) :=
  match callback with
  | .onStepResumed ns stepId => .ok (onStepResumed env m ns stepId result)
  | .onPreGateChecked ns stepId => .ok (onPreGateChecked env m ns stepId result)
  | .onAssertedRunPostcheck ns stepId id method args expected gas => do
      let p ← onAssertedRunPostcheck ns stepId id method args expected gas result
      .ok (m, .promise p)
  | .onAssertedEvaluatePostcheck ns stepId expected => do
      let m' ← onAssertedEvaluatePostcheck m ns stepId expected result
      .ok (m', .value [])
  | .onStepResolved ns stepId => .ok (onStepResolved env m ns stepId result, .value [])

end Machine

end SmartAccount
