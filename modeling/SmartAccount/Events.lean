import SmartAccount.State

/-!
# Emitted events

The NEP-297 events of the `sa-automation` standard, one constructor per event name
with the fields the contract puts under `data`.  The `data.runtime` snapshot and the free-text
lines stand apart, where the text of a log is read or its bytes are counted.
-/

namespace SmartAccount

open Foundation

/-! ## Promise results -/

/-- `PromiseError`, as `promise_result_checked` reports it. -/
inductive PromiseError where
  | failed
  | tooLong (size : Nat)
deriving DecidableEq

namespace PromiseError

/-- `resolve_error_kind`. -/
def kind : PromiseError → String
  | failed => "downstream_failed"
  | tooLong _ => "result_oversized"

/-- `resolve_error_oversized_bytes`. -/
def oversizedBytes : PromiseError → Option Nat
  | failed => none
  | tooLong size => some size

def debug : PromiseError → String
  | failed => "Failed"
  | tooLong size => "TooLong(" ++ toString size ++ ")"

end PromiseError

/-! ## The `call` object -/

structure AssertionMetadata where
  assertionId : AccountId
  assertionMethod : String
  assertionGasTgas : Nat
  assertionArgsBytesLen : Nat
  expectedReturnBytesLen : Nat
  /-- `assertion_args` and `expected_return`, on the two events that carry them. -/
  payload : Option (Bytes × Bytes)
deriving DecidableEq

structure CallMetadata where
  targetId : AccountId
  method : String
  argsBytesLen : Nat
  depositYocto : Nat
  gasTgas : Nat
  policy : String
  dispatchSummary : String
  adapter : Option (AccountId × String)
  assertion : Option AssertionMetadata
deriving DecidableEq

def StepPolicy.label : StepPolicy → String
  | direct => "direct"
  | adapter _ _ => "adapter"
  | asserted _ _ _ _ _ => "asserted"

/-- `call_dispatch_summary`. -/
def Step.dispatchSummary (call : Step) : String :=
  match call.policy with
  | .direct => "direct " ++ call.targetId.val ++ "." ++ call.methodName
  | .adapter adapterId adapterMethod =>
      "adapter " ++ adapterId.val ++ "." ++ adapterMethod ++ " wrapping " ++
        call.targetId.val ++ "." ++ call.methodName
  | .asserted assertionId assertionMethod _ _ _ =>
      "asserted " ++ call.targetId.val ++ "." ++ call.methodName ++ " postchecked by " ++
        assertionId.val ++ "." ++ assertionMethod

/-- `call_metadata_json_impl`. -/
def Step.metadataImpl (call : Step) (includeAssertionPayload : Bool) : CallMetadata where
  targetId := call.targetId
  method := call.methodName
  argsBytesLen := call.args.length
  depositYocto := call.attachedDepositYocto
  gasTgas := call.gasTgas
  policy := call.policy.label
  dispatchSummary := call.dispatchSummary
  adapter := match call.policy with
    | .adapter adapterId adapterMethod => some (adapterId, adapterMethod)
    | _ => none
  assertion := match call.policy with
    | .asserted assertionId assertionMethod assertionArgs expectedReturn assertionGasTgas =>
        some ⟨assertionId, assertionMethod, assertionGasTgas, assertionArgs.length,
          expectedReturn.length,
          if includeAssertionPayload then some (assertionArgs, expectedReturn) else none⟩
    | _ => none

/-- `call_metadata_json`. -/
def Step.metadata (call : Step) : CallMetadata := call.metadataImpl false

/-- `call_metadata_json_full`. -/
def Step.metadataFull (call : Step) : CallMetadata := call.metadataImpl true

def ComparisonKind.tag : ComparisonKind → String
  | u128Json => "u128_json"
  | i128Json => "i128_json"
  | lexBytes => "lex_bytes"

def AutomationRunStatus.debug : AutomationRunStatus → String
  | inFlight => "InFlight"
  | succeeded => "Succeeded"
  | downstreamFailed => "DownstreamFailed"
  | resumeFailed => "ResumeFailed"

/-! ## Event payloads -/

/-- The run record embedded in `sequence_started`. -/
structure AutomationContext where
  triggerId : String
  sequenceId : String
  runNonce : Nat
  executorId : AccountId
  startedAtMs : Nat
deriving DecidableEq

/-- `sequence_halted`; the optional fields are those only some halt paths emit. -/
structure HaltData where
  sequenceNamespace : String
  failedStepId : String
  reason : String
  errorKind : String
  afterStepId : Option String := none
  errorMsg : String
  registeredAtMs : Option Nat := none
  haltLatencyMs : Option Nat := none
  call : Option CallMetadata := none
deriving DecidableEq

structure PreGateChecked where
  stepId : String
  sequenceNamespace : String
  outcome : String
  matched : Bool
  expectedMinBytesLen : Option Nat
  expectedMaxBytesLen : Option Nat
  actualBytesLen : Nat
  actualReturn : Option Bytes
  comparison : String
  error : Option PromiseError
  call : CallMetadata
deriving DecidableEq

structure AssertionChecked where
  stepId : String
  sequenceNamespace : String
  expectedReturn : Bytes
  actualBytesLen : Nat
  actualReturn : Option Bytes
  matched : Bool
  outcome : String
  error : Option PromiseError
  call : Option CallMetadata
deriving DecidableEq

structure TriggerFired where
  triggerId : String
  sequenceNamespace : String
  sequenceId : String
  runNonce : Nat
  executorId : AccountId
  startedAtMs : Nat
  callCount : Nat
  runsStarted : Nat
  maxRuns : Nat
  runsRemaining : Nat
  minBalanceYocto : Nat
  balanceYocto : Nat
  requiredBalanceYocto : Nat
  templateTotalDepositYocto : Nat
  triggerCreatedAtMs : Nat
deriving DecidableEq

structure RunFinished where
  triggerId : String
  sequenceNamespace : String
  sequenceId : String
  runNonce : Nat
  executorId : AccountId
  status : AutomationRunStatus
  startedAtMs : Nat
  finishedAtMs : Option Nat
  durationMs : Option Nat
  failedStepId : Option String
deriving DecidableEq

inductive Event where
  | stepRegistered (stepId sequenceNamespace : String)
      (registeredAtMs resumeCallbackGasTgas : Nat) (call : CallMetadata)
  | sequenceStarted (sequenceNamespace firstStepId : String) (queuedCount totalSteps : Nat)
      (automationRun : Option AutomationContext) (origin : String)
  | stepResumed (stepId sequenceNamespace : String) (registeredAtMs resumeLatencyMs : Nat)
      (call : CallMetadata)
  | stepResolvedOk (stepId sequenceNamespace : String) (resultBytesLen : Nat)
      (nextStepId : Option String) (registeredAtMs resolveLatencyMs : Nat)
      (call : Option CallMetadata)
  | stepResolvedErr (stepId sequenceNamespace : String) (error : PromiseError)
      (registeredAtMs resolveLatencyMs : Nat) (call : Option CallMetadata)
  | sequenceCompleted (sequenceNamespace finalStepId : String) (finalResultBytesLen : Nat)
  | sequenceHalted (data : HaltData)
  | preGateChecked (data : PreGateChecked)
  | assertionChecked (data : AssertionChecked)
  | resultSaved (stepId sequenceNamespace asName : String) (kind : String) (bytesLen : Nat)
  | triggerCreated (triggerId sequenceId : String) (minBalanceYocto maxRuns createdAtMs : Nat)
      (templateCallCount templateTotalDepositYocto : Option Nat)
  | triggerFired (data : TriggerFired)
  | runFinished (data : RunFinished)
  | automationRunsPruned (prunedCount : Nat) (namespaces : List String)
  | sessionEnrolled (grant : SessionGrant) (allowanceYocto : Nat)
  | sessionFired (sessionPublicKey triggerId : String) (fireCountAfter maxFireCount : Nat)
      (label : Option String)
  | sessionRevoked (sessionPublicKey reason : String)
  | proxyKeyEnrolled (grant : ProxyGrant) (allowanceYocto : Nat)
  | proxyCallDispatched (sessionPublicKey : String) (target : AccountId) (method : String)
      (argsBytesLen attachYocto maxGasTgas callCount maxCallCount : Nat) (label : Option String)
  | proxyKeyRevoked (sessionPublicKey reason : String)
deriving DecidableEq

/-- The namespace an event is about, where it is about one. -/
def Event.sequenceNamespace : Event → Option String
  | stepRegistered _ ns _ _ _ => some ns
  | sequenceStarted ns _ _ _ _ _ => some ns
  | stepResumed _ ns _ _ _ => some ns
  | stepResolvedOk _ ns _ _ _ _ _ => some ns
  | stepResolvedErr _ ns _ _ _ _ => some ns
  | sequenceCompleted ns _ _ => some ns
  | sequenceHalted data => some data.sequenceNamespace
  | preGateChecked data => some data.sequenceNamespace
  | assertionChecked data => some data.sequenceNamespace
  | resultSaved _ ns _ _ _ => some ns
  | triggerFired data => some data.sequenceNamespace
  | runFinished data => some data.sequenceNamespace
  | _ => none

end SmartAccount
