import SmartAccount.Types

/-!
# Contract state

The records the contract stores, under the source's field names.  `ContractOf M` is
the root record over an arbitrary collection type `M`: the running contract keeps
its collections as `IterableMap`s, while the stored root holds their handles.
-/

namespace SmartAccount

open Foundation

/-- One step of a plan: a call, the policy it resolves under, an optional gate before
it, and what it saves from or splices out of the sequence context. -/
structure Step where
  stepId : String
  targetId : AccountId
  methodName : String
  args : Bytes
  attachedDepositYocto : Nat
  gasTgas : Nat
  policy : StepPolicy
  preGate : Option PreGate
  saveResult : Option SaveResult
  argsTemplate : Option ArgsTemplate
deriving DecidableEq

/-- The JSON form of a step carries the same data. -/
abbrev StepInput := Step

abbrev YieldId := Nat

structure RegisteredStep where
  yieldId : YieldId
  call : Step
  createdAtMs : Nat
deriving DecidableEq

structure SequenceTemplate where
  calls : List Step
  savedAtMs : Nat
  totalAttachedDepositYocto : Nat
deriving DecidableEq

inductive AutomationRunStatus where
  | inFlight
  | succeeded
  | downstreamFailed
  | resumeFailed
deriving DecidableEq

structure AutomationRun where
  triggerId : String
  sequenceId : String
  sequenceNamespace : String
  runNonce : Nat
  executorId : AccountId
  startedAtMs : Nat
  finishedAtMs : Option Nat
  status : AutomationRunStatus
  failedStepId : Option String
deriving DecidableEq

structure BalanceTrigger where
  sequenceId : String
  minBalanceYocto : Nat
  maxRuns : Nat
  runsStarted : Nat
  inFlight : Bool
  lastExecutorId : Option AccountId
  lastStartedAtMs : Option Nat
  lastFinishedAtMs : Option Nat
  lastRunNamespace : Option String
  lastRunOutcome : Option AutomationRunStatus
  createdAtMs : Nat
deriving DecidableEq

/-- The results saved so far by the steps of one sequence. -/
structure SequenceContext where
  savedResults : IterableMap String Bytes := .empty

/-- Policy metadata of a session key, stored under the key's text form. -/
structure SessionGrant where
  sessionPublicKey : String
  grantedAtMs : Nat
  expiresAtMs : Nat
  allowedTriggerIds : Option (List String)
  maxFireCount : Nat
  fireCount : Nat
  label : Option String
deriving DecidableEq

/-- Policy metadata of a proxy key, stored under the key's text form. -/
structure ProxyGrant where
  sessionPublicKey : String
  grantedAtMs : Nat
  expiresAtMs : Nat
  allowedTargets : List AccountId
  allowedMethods : Option (List String)
  attachYocto : Nat
  maxGasTgas : Nat
  maxCallCount : Nat
  callCount : Nat
  label : Option String
deriving DecidableEq

/-- The contract's root record, over the collection type `M`. -/
structure ContractOf (M : Type → Type → Type) where
  ownerId : AccountId
  authorizedExecutor : Option AccountId
  registeredSteps : M String RegisteredStep
  sequenceQueue : M String (List String)
  sequenceTemplates : M String SequenceTemplate
  balanceTriggers : M String BalanceTrigger
  automationRuns : M String AutomationRun
  sequenceContexts : M String SequenceContext
  sessionGrants : M String SessionGrant
  authorizerId : Option AccountId
  proxyGrants : M String ProxyGrant

/-- The running contract. -/
abbrev Contract := ContractOf IterableMap

/-- `new_with_owner_and_authorizer`. -/
def Contract.newWithOwnerAndAuthorizer (ownerId : AccountId) (authorizerId : Option AccountId) :
    Contract where
  ownerId := ownerId
  authorizedExecutor := none
  registeredSteps := .empty
  sequenceQueue := .empty
  sequenceTemplates := .empty
  balanceTriggers := .empty
  automationRuns := .empty
  sequenceContexts := .empty
  sessionGrants := .empty
  authorizerId := authorizerId
  proxyGrants := .empty

/-! ## Keys -/

def manualNamespace (caller : AccountId) : String := "manual:" ++ caller.val

def automationNamespace (triggerId : String) (runNonce : Nat) : String :=
  "auto:" ++ triggerId ++ ":" ++ toString runNonce

def registeredStepKey (sequenceNamespace stepId : String) : String :=
  sequenceNamespace ++ "#" ++ stepId

/-! ## Guards -/

namespace Contract

/-- `assert_executor`, as the condition it asserts. -/
def isExecutor (c : Contract) (caller : AccountId) : Bool :=
  caller = c.ownerId || c.authorizedExecutor = some caller

/-- `sequence_id_is_referenced`. -/
def sequenceIdIsReferenced (c : Contract) (sequenceId : String) : Bool :=
  c.balanceTriggers.entries.any fun e => e.2.sequenceId = sequenceId

/-- The keys of `registered_steps` that start with `{namespace}#`. -/
def namespaceKeys (c : Contract) (sequenceNamespace : String) : List String :=
  c.registeredSteps.keys.filter fun key => startsWith key (sequenceNamespace ++ "#")

/-- `clear_registered_namespace`. -/
def clearRegisteredNamespace (c : Contract) (sequenceNamespace : String) : Contract :=
  { c with registeredSteps := c.registeredSteps.removeAll (c.namespaceKeys sequenceNamespace) }

/-- `clear_sequence_context`. -/
def clearSequenceContext (c : Contract) (sequenceNamespace : String) : Contract :=
  { c with sequenceContexts := c.sequenceContexts.remove sequenceNamespace }

/-- The saved results that `materialize_step_call` reads. -/
def savedResults (c : Contract) (sequenceNamespace : String) : IterableMap String Bytes :=
  ((c.sequenceContexts.get sequenceNamespace).map (·.savedResults)).getD .empty

/-- `materialize_step_call`. -/
def materializeStepCall (c : Contract) (sequenceNamespace : String) (call : Step) :
    Except MaterializeError Step :=
  match call.argsTemplate with
  | none => .ok call
  | some template => do
      let args ← materializeArgs template.template template.substitutions
        (c.savedResults sequenceNamespace)
      .ok { call with args := args }

/-- The write of `save_step_result`. -/
def saveStepResult (c : Contract) (sequenceNamespace : String) (spec : SaveResult)
    (bytes : Bytes) : Contract :=
  { c with
    sequenceContexts := c.sequenceContexts.insert sequenceNamespace
      ⟨(c.savedResults sequenceNamespace).insert spec.asName bytes⟩ }

/-- `take_next_queued_step`: the head of the queue, and the queue without it. -/
def takeNextQueuedStep (c : Contract) (sequenceNamespace : String) :
    Option String × Contract :=
  match c.sequenceQueue.get sequenceNamespace with
  | none => (none, c)
  | some [] => (none, { c with sequenceQueue := c.sequenceQueue.remove sequenceNamespace })
  | some [next] =>
      (some next, { c with sequenceQueue := c.sequenceQueue.remove sequenceNamespace })
  | some (next :: remaining) =>
      (some next,
        { c with sequenceQueue := c.sequenceQueue.insert sequenceNamespace remaining })

end Contract

end SmartAccount
