import SmartAccount.Machine
import SmartAccount.Validation

/-!
# The sequencer: registration, release, dispatch

The internal functions of the sequencer that a transaction or a callback calls:
registering a yielded step, starting a release, resuming the next step, building the
promise of a step's target, and closing an automation run.
-/

namespace SmartAccount

open Foundation

/-! ## Calls built for a step -/

/-- `encode_adapter_dispatch_args`. -/
def Step.adapterDispatchInput (call : Step) : AdapterDispatchInput where
  targetId := call.targetId
  methodName := call.methodName
  args := call.args
  attachedDepositYocto := call.attachedDepositYocto
  gasTgas := call.gasTgas

/-- `build_call_promise`: the call itself, or the hop through the authorizer. -/
def buildCallPromise (authorizerId : Option AccountId) (targetId : AccountId)
    (methodName : String) (args : CallArgs) (attachedDepositYocto gasTgas : Nat) : Promise :=
  match authorizerId with
  | some auth =>
      ⟨⟨auth, "dispatch", .dispatch targetId methodName args gasTgas, attachedDepositYocto,
        gasTgas + authorizerHopOverheadTgas⟩, []⟩
  | none => ⟨⟨targetId, methodName, args, attachedDepositYocto, gasTgas⟩, []⟩

/-- `dispatch_promise_for_call`. -/
def dispatchPromiseForCall (authorizerId : Option AccountId) (sequenceNamespace : String)
    (call : Step) : Promise :=
  match call.policy with
  | .direct =>
      buildCallPromise authorizerId call.targetId call.methodName (.raw call.args)
        call.attachedDepositYocto call.gasTgas
  | .adapter adapterId adapterMethod =>
      buildCallPromise authorizerId adapterId adapterMethod
        (.adapterCall call.adapterDispatchInput) call.attachedDepositYocto
        (call.gasTgas + adapterSequenceOverheadTgas)
  | .asserted assertionId assertionMethod assertionArgs expectedReturn assertionGasTgas =>
      (buildCallPromise authorizerId call.targetId call.methodName (.raw call.args)
          call.attachedDepositYocto call.gasTgas).andThen
        ⟨.onAssertedRunPostcheck sequenceNamespace call.stepId assertionId assertionMethod
            assertionArgs expectedReturn assertionGasTgas,
          assertedPostcheckRunGasTgas + assertionGasTgas + assertedPostcheckEvaluateGasTgas⟩

/-- The gate call of a step and the callback that reads its verdict. -/
def gatePromise (preGate : PreGate) (sequenceNamespace stepId : String) (gasTgas : Nat) :
    Promise :=
  ⟨⟨preGate.gateId, preGate.gateMethod, .raw preGate.gateArgs, 0, preGate.gateGasTgas⟩,
    [⟨.onPreGateChecked sequenceNamespace stepId,
      preGateCheckCallbackGasTgas + gasTgas + stepResolveCallbackGasTgas⟩]⟩

/-- The dispatch of a step's call with `on_step_resolved` chained behind it. -/
def resolvedPromise (authorizerId : Option AccountId) (sequenceNamespace stepId : String)
    (call : Step) : Promise :=
  (dispatchPromiseForCall authorizerId sequenceNamespace call).andThen
    ⟨.onStepResolved sequenceNamespace stepId, stepResolveCallbackGasTgas⟩

/-- `PromiseOrValue::Value(())`. -/
def unitValue : PromiseOrValue := .value (utf8Bytes "null")

namespace Machine

/-! ## Single writes -/

def storeStep (m : Machine) (ns stepId : String) (yielded : RegisteredStep) : Machine :=
  m.withContract { m.contract with
    registeredSteps :=
      m.contract.registeredSteps.insert (registeredStepKey ns stepId) yielded }

def removeStep (m : Machine) (ns stepId : String) : Machine :=
  m.withContract { m.contract with
    registeredSteps := m.contract.registeredSteps.remove (registeredStepKey ns stepId) }

def setQueue (m : Machine) (ns : String) (waiting : List String) : Machine :=
  m.withContract { m.contract with
    sequenceQueue := m.contract.sequenceQueue.insert ns waiting }

def removeQueue (m : Machine) (ns : String) : Machine :=
  m.withContract { m.contract with sequenceQueue := m.contract.sequenceQueue.remove ns }

def clearContext (m : Machine) (ns : String) : Machine :=
  m.withContract (m.contract.clearSequenceContext ns)

def getStep (m : Machine) (ns stepId : String) : Option RegisteredStep :=
  m.contract.registeredSteps.get (registeredStepKey ns stepId)

/-! ## Closing a run -/

/-- The row that `finish_automation_run` writes. -/
def finishedRun (env : Env) (run : AutomationRun) (status : AutomationRunStatus)
    (failedStepId : Option String) : AutomationRun :=
  { run with status := status, failedStepId := failedStepId, finishedAtMs := some env.now }

/-- The trigger's side of a finished run. -/
def finishedTrigger (env : Env) (trigger : BalanceTrigger) (status : AutomationRunStatus) :
    BalanceTrigger :=
  { trigger with
    inFlight := false
    lastFinishedAtMs := some env.now
    lastRunOutcome := some status }

def runFinishedEvent (env : Env) (ns : String) (run : AutomationRun)
    (status : AutomationRunStatus) (failedStepId : Option String) : RunFinished where
  triggerId := run.triggerId
  sequenceNamespace := ns
  sequenceId := run.sequenceId
  runNonce := run.runNonce
  executorId := run.executorId
  status := status
  startedAtMs := run.startedAtMs
  finishedAtMs := some env.now
  durationMs := some (env.now - run.startedAtMs)
  failedStepId := failedStepId

/-- The writes of `finish_automation_run` to the run's row and its trigger. -/
def recordRunFinished (env : Env) (m : Machine) (ns : String) (run : AutomationRun)
    (status : AutomationRunStatus) (failedStepId : Option String) : Machine :=
  m.withContract { m.contract with
    automationRuns :=
      m.contract.automationRuns.insert ns (finishedRun env run status failedStepId)
    balanceTriggers :=
      match m.contract.balanceTriggers.get run.triggerId with
      | none => m.contract.balanceTriggers
      | some trigger =>
          m.contract.balanceTriggers.insert run.triggerId (finishedTrigger env trigger status) }

/-- `clear_registered_namespace`. -/
def clearNamespace (m : Machine) (ns : String) : Machine :=
  m.withContract (m.contract.clearRegisteredNamespace ns)

def finishAutomationRun (env : Env) (m : Machine) (ns : String) (status : AutomationRunStatus)
    (failedStepId : Option String) : Machine :=
  match m.contract.automationRuns.get ns with
  | none => m
  | some run =>
      if run.status ≠ .inFlight then m
      else
        (((recordRunFinished env m ns run status failedStepId).emit
          (.runFinished (runFinishedEvent env ns run status failedStepId))).clearNamespace
            ns).removeQueue ns

/-! ## Registration -/

/-- `register_step_in_namespace`. -/
def registerStepInNamespace (env : Env) (m : Machine) (ns : String) (call : Step) :
    Except String Machine := do
  require (m.getStep ns call.stepId).isNone "step_id already yielded for this sequence"
  let (m', yieldId) :=
    m.newYield ⟨.onStepResumed ns call.stepId, resumeCallbackGas call + env.spareGas⟩
  .ok (((m'.storeStep ns call.stepId ⟨yieldId, call, env.now⟩).note
    (.registered ns yieldId call (resumeCallbackGas call + env.spareGas))).emit
      (.stepRegistered call.stepId ns env.now (resumeCallbackGas call) call.metadataFull))

/-- Register the steps of a plan in order. -/
def registerSteps (env : Env) (m : Machine) (ns : String) (calls : List Step) :
    Except String Machine :=
  calls.foldlM (fun m call => registerStepInNamespace env m ns call) m

/-! ## Release -/

def notYielded (stepId : String) : String :=
  "step_id '" ++ stepId ++ "' not yielded for this sequence"

/-- `resume_registered_step`. -/
def resumeRegisteredStep (m : Machine) (ns stepId : String) : Except String Machine :=
  match m.getStep ns stepId with
  | none => .error (notYielded stepId)
  | some yielded =>
      match m.resumeYield yielded.yieldId with
      | none => .error ("failed to resume yielded step '" ++ stepId ++ "'")
      | some m' => .ok (m'.noteResumed ns stepId yielded.yieldId)

/-- The check of every step id of an order. -/
def checkOrder (m : Machine) (ns : String) : List String → Except String Unit
  | [] => .ok ()
  | stepId :: rest => do
      require (m.getStep ns stepId).isSome (notYielded stepId)
      checkOrder m ns rest

def automationContext (run : AutomationRun) : AutomationContext where
  triggerId := run.triggerId
  sequenceId := run.sequenceId
  runNonce := run.runNonce
  executorId := run.executorId
  startedAtMs := run.startedAtMs

/-- The `sequence_started` event of a release of `total` steps. -/
def sequenceStartedEvent (m : Machine) (ns first : String) (total : Nat) : Event :=
  let queued := ((m.contract.sequenceQueue.get ns).map List.length).getD 0
  let context := (m.contract.automationRuns.get ns).map automationContext
  .sequenceStarted ns first queued total context
    (if context.isSome then "automation" else "manual")

/-- `start_sequence_release_in_namespace`, with the number of steps it returns. -/
def startSequenceReleaseInNamespace (m : Machine) (ns : String) (order : List String) :
    Except String (Machine × Nat) := do
  require (order ≠ []) "order cannot be empty"
  require (m.contract.sequenceQueue.get ns).isNone "sequence already has a run in flight"
  checkOrder m ns order
  match order with
  | [] => .error "checked non-empty"
  | first :: rest => do
      let queued := if rest ≠ [] then m.setQueue ns rest else m
      let resumed ← (queued.note (.released ns order)).resumeRegisteredStep ns first
      .ok (resumed.emit (resumed.sequenceStartedEvent ns first order.length), order.length)

/-! ## Progress -/

/-- `save_step_result`. -/
def saveStepResult (m : Machine) (ns stepId : String) (spec : SaveResult) (bytes : Bytes) :
    Machine :=
  (m.withContract (m.contract.saveStepResult ns spec bytes)).emit
    (.resultSaved stepId ns spec.asName spec.kind.tag bytes.length)

/-- What the sequencer halts with when the next step cannot be resumed. -/
def haltOnResumeFailure (env : Env) (m : Machine) (ns resolvedStepId next message : String) :
    Machine :=
  (finishAutomationRun env ((m.removeQueue ns).clearContext ns) ns .resumeFailed
    (some next)).emit
      (.sequenceHalted {
        sequenceNamespace := ns
        failedStepId := next
        reason := "resume_failed"
        errorKind := "resume_failed"
        errorMsg := message
        afterStepId := some resolvedStepId })

/-- `progress_sequence_after_successful_resolution`. -/
def progressSequenceAfterSuccessfulResolution (env : Env) (m : Machine)
    (ns resolvedStepId : String) (resultLen : Nat) (call : Option CallMetadata)
    (registeredAtMs : Nat) : Machine :=
  let resolvedOk (next : Option String) : Event :=
    .stepResolvedOk resolvedStepId ns resultLen next registeredAtMs (env.now - registeredAtMs)
      call
  match m.contract.takeNextQueuedStep ns with
  | (some next, c) =>
      let taken := (m.withContract c).emit (resolvedOk (some next))
      match taken.resumeRegisteredStep ns next with
      | .ok resumed => resumed
      | .error message => haltOnResumeFailure env taken ns resolvedStepId next message
  | (none, c) =>
      let completed := ((m.withContract c).emit (resolvedOk none)).emit
        (.sequenceCompleted ns resolvedStepId resultLen)
      (finishAutomationRun env completed ns .succeeded none).clearContext ns

end Machine

end SmartAccount
