import SmartAccount.Sequencer

/-!
# Configuration and automation

The owner's configuration calls, durable templates, balance triggers, and the two
calls that move runs: `execute_trigger` and the public pruning of finished rows.
-/

namespace SmartAccount

open Foundation

namespace Machine

/-- `assert_owner`. -/
def assertOwner (env : Env) (m : Machine) : Except String Unit :=
  require (env.predecessor = m.contract.ownerId) "owner-only"

/-- `assert_executor`. -/
def assertExecutor (env : Env) (m : Machine) : Except String Unit :=
  require (m.contract.isExecutor env.predecessor) "caller is not allowed to execute sequences"

/-! ## Configuration -/

def setAuthorizer (env : Env) (m : Machine) (authorizerId : Option AccountId) :
    Except String Machine := do
  assertOwner env m
  .ok (m.withContract { m.contract with authorizerId := authorizerId })

def setAuthorizedExecutor (env : Env) (m : Machine) (authorizedExecutor : Option AccountId) :
    Except String Machine := do
  assertOwner env m
  .ok (m.withContract { m.contract with authorizedExecutor := authorizedExecutor })

/-! ## Manual execution -/

/-- The duplicate check of `execute_steps`. -/
def checkDistinct (seen : List String) : List String → Except String Unit
  | [] => .ok ()
  | stepId :: rest => do
      require (stepId ∉ seen) "execute_steps: duplicate step_id in submitted plan"
      checkDistinct (stepId :: seen) rest

/-- The registration loop of `execute_steps`. -/
def registerInputs (env : Env) (m : Machine) (ns : String) :
    List StepInput → Except String Machine
  | [] => .ok m
  | input :: rest => do
      let call ← stepFromRaw input
      let m' ← registerStepInNamespace env m ns call
      registerInputs env m' ns rest

def executeSteps (env : Env) (m : Machine) (steps : List StepInput) :
    Except String (Machine × Nat) := do
  assertExecutor env m
  require (steps ≠ []) "execute_steps requires at least one step"
  let ns := manualNamespace env.predecessor
  let order := steps.map Step.stepId
  checkDistinct [] order
  let registered ← registerInputs env m ns steps
  startSequenceReleaseInNamespace registered ns order

def registerStep (env : Env) (m : Machine) (input : StepInput) : Except String Machine := do
  let call ← stepFromRaw input
  registerStepInNamespace env m (manualNamespace env.predecessor) call

def runSequence (env : Env) (m : Machine) (callerId : AccountId) (order : List String) :
    Except String (Machine × Nat) := do
  assertExecutor env m
  startSequenceReleaseInNamespace m (manualNamespace callerId) order

/-! ## Durable sequence templates -/

def saveSequenceTemplate (env : Env) (m : Machine) (sequenceId : String)
    (calls : List StepInput) : Except String Machine := do
  assertOwner env m
  require (sequenceId ≠ "") "sequence_id cannot be empty"
  require (calls ≠ []) "sequence template must contain at least one call"
  let (validated, total) ← validateSequenceTemplateInputs calls
  .ok (m.withContract { m.contract with
    sequenceTemplates := m.contract.sequenceTemplates.insert sequenceId
      { calls := validated, savedAtMs := env.now, totalAttachedDepositYocto := total } })

def deleteSequenceTemplate (env : Env) (m : Machine) (sequenceId : String) :
    Except String Machine := do
  assertOwner env m
  require (m.contract.sequenceTemplates.get sequenceId).isSome "unknown sequence template"
  require (!m.contract.sequenceIdIsReferenced sequenceId)
    "sequence template is still referenced by a balance trigger"
  .ok (m.withContract { m.contract with
    sequenceTemplates := m.contract.sequenceTemplates.remove sequenceId })

/-! ## Balance triggers -/

def createBalanceTrigger (env : Env) (m : Machine) (triggerId sequenceId : String)
    (minBalanceYocto maxRuns : Nat) : Except String Machine := do
  assertOwner env m
  require (triggerId ≠ "") "trigger_id cannot be empty"
  require (sequenceId ≠ "") "sequence_id cannot be empty"
  require (0 < maxRuns) "max_runs must be greater than zero"
  require (m.contract.balanceTriggers.get triggerId).isNone "trigger_id already exists"
  let template ← expect (m.contract.sequenceTemplates.get sequenceId) "unknown sequence template"
  let trigger : BalanceTrigger := {
    sequenceId := sequenceId
    minBalanceYocto := minBalanceYocto
    maxRuns := maxRuns
    runsStarted := 0
    inFlight := false
    lastExecutorId := none
    lastStartedAtMs := none
    lastFinishedAtMs := none
    lastRunNamespace := none
    lastRunOutcome := none
    createdAtMs := env.now }
  .ok ((m.withContract { m.contract with
    balanceTriggers := m.contract.balanceTriggers.insert triggerId trigger }).emit
      (.triggerCreated triggerId sequenceId minBalanceYocto maxRuns env.now
        (some template.calls.length) (some template.totalAttachedDepositYocto)))

def deleteBalanceTrigger (env : Env) (m : Machine) (triggerId : String) :
    Except String Machine := do
  assertOwner env m
  let trigger ← expect (m.contract.balanceTriggers.get triggerId) "unknown balance trigger"
  require (!trigger.inFlight) "balance trigger is currently in flight"
  .ok (m.withContract { m.contract with
    balanceTriggers := m.contract.balanceTriggers.remove triggerId })

/-! ## Firing -/

/-- The session grant after one more fire. -/
def SessionGrant.fired (grant : SessionGrant) : SessionGrant :=
  { grant with fireCount := grant.fireCount + 1 }

/-- The authorization of `execute_trigger`: by the signer's session grant where there
is one, by `assert_executor` where there is none. -/
def authorizeFire (env : Env) (m : Machine) (triggerId : String) : Except String Machine :=
  match m.contract.sessionGrants.get env.signerPk with
  | none => do
      assertExecutor env m
      .ok m
  | some grant => do
      require (env.now ≤ grant.expiresAtMs) "session expired"
      require (grant.fireCount < grant.maxFireCount) "session fire_count cap reached"
      require (grant.allowedTriggerIds.all fun allowed => triggerId ∈ allowed)
        "trigger_id not in session's allowed_trigger_ids"
      let updated := SessionGrant.fired grant
      .ok ((m.emit (.sessionFired env.signerPk triggerId updated.fireCount updated.maxFireCount
        updated.label)).withContract { m.contract with
          sessionGrants := m.contract.sessionGrants.insert env.signerPk updated })

/-- The balance a trigger asks for. -/
def requiredBalanceYocto (trigger : BalanceTrigger) (template : SequenceTemplate) : Nat :=
  max trigger.minBalanceYocto template.totalAttachedDepositYocto

def triggerFiredEvent (env : Env) (triggerId ns : String) (runNonce : Nat)
    (trigger : BalanceTrigger) (template : SequenceTemplate) : TriggerFired where
  triggerId := triggerId
  sequenceNamespace := ns
  sequenceId := trigger.sequenceId
  runNonce := runNonce
  executorId := env.predecessor
  startedAtMs := env.now
  callCount := template.calls.length
  runsStarted := runNonce
  maxRuns := trigger.maxRuns
  runsRemaining := trigger.maxRuns - runNonce
  minBalanceYocto := trigger.minBalanceYocto
  balanceYocto := env.accountBalance
  requiredBalanceYocto := requiredBalanceYocto trigger template
  templateTotalDepositYocto := template.totalAttachedDepositYocto
  triggerCreatedAtMs := trigger.createdAtMs

/-- The trigger once its run `runNonce` has started. -/
def startedTrigger (env : Env) (trigger : BalanceTrigger) (ns : String) (runNonce : Nat) :
    BalanceTrigger :=
  { trigger with
    runsStarted := runNonce
    inFlight := true
    lastExecutorId := some env.predecessor
    lastStartedAtMs := some env.now
    lastFinishedAtMs := none
    lastRunNamespace := some ns
    lastRunOutcome := some .inFlight }

/-- The row of a run that has just started. -/
def startedRun (env : Env) (triggerId sequenceId ns : String) (runNonce : Nat) :
    AutomationRun where
  triggerId := triggerId
  sequenceId := sequenceId
  sequenceNamespace := ns
  runNonce := runNonce
  executorId := env.predecessor
  startedAtMs := env.now
  finishedAtMs := none
  status := .inFlight
  failedStepId := none

/-- The checks of `execute_trigger` on the trigger it found. -/
def checkTrigger (env : Env) (m : Machine) (triggerId : String) (trigger : BalanceTrigger)
    (template : SequenceTemplate) : Except String Unit := do
  require (!trigger.inFlight) "balance trigger already has a run in flight"
  require (trigger.runsStarted < trigger.maxRuns) "balance trigger has exhausted max_runs"
  require (requiredBalanceYocto trigger template ≤ env.accountBalance)
    "smart account balance is below the trigger threshold"
  require (trigger.runsStarted + 1 < 2 ^ 32) "run nonce overflow"
  require (m.contract.automationRuns.get
    (automationNamespace triggerId (trigger.runsStarted + 1))).isNone
    "automation namespace already exists"

/-- The two writes that end `execute_trigger`. -/
def recordRunStarted (env : Env) (m : Machine) (triggerId ns : String) (runNonce : Nat)
    (trigger : BalanceTrigger) : Machine :=
  m.withContract { m.contract with
    balanceTriggers :=
      m.contract.balanceTriggers.insert triggerId (startedTrigger env trigger ns runNonce)
    automationRuns :=
      m.contract.automationRuns.insert ns
        (startedRun env triggerId trigger.sequenceId ns runNonce) }

/-- `TriggerExecutionView`. -/
structure TriggerExecution where
  triggerId : String
  sequenceId : String
  sequenceNamespace : String
  runNonce : Nat
  executorId : AccountId
  startedAtMs : Nat
  callCount : Nat

def executeTrigger (env : Env) (m : Machine) (triggerId : String) :
    Except String (Machine × TriggerExecution) := do
  let authorized ← authorizeFire env m triggerId
  let trigger ← expect (authorized.contract.balanceTriggers.get triggerId)
    "unknown balance trigger"
  let template ← expect (authorized.contract.sequenceTemplates.get trigger.sequenceId)
    "unknown sequence template"
  checkTrigger env authorized triggerId trigger template
  let runNonce := trigger.runsStarted + 1
  let ns := automationNamespace triggerId runNonce
  let registered ← registerSteps env authorized ns template.calls
  let fired := registered.emit
    (.triggerFired (triggerFiredEvent env triggerId ns runNonce trigger template))
  let (released, callCount) ← startSequenceReleaseInNamespace fired ns
    (template.calls.map Step.stepId)
  .ok (recordRunStarted env released triggerId ns runNonce trigger,
    { triggerId := triggerId
      sequenceId := trigger.sequenceId
      sequenceNamespace := ns
      runNonce := runNonce
      executorId := env.predecessor
      startedAtMs := env.now
      callCount := callCount })

/-! ## Pruning -/

/-- The namespaces of the finished runs. -/
def terminalRuns (c : Contract) : List String :=
  (c.automationRuns.entries.filter fun e => e.2.status ≠ .inFlight).map Prod.fst

/-- `prune_finished_automation_runs`, with the number of rows it returns. -/
def pruneFinishedAutomationRuns (m : Machine) : Machine × Nat :=
  let terminal := terminalRuns m.contract
  if terminal = [] then (m, 0)
  else
    ((m.withContract { m.contract with
      automationRuns := m.contract.automationRuns.removeAll terminal }).emit
        (.automationRunsPruned terminal.length terminal), terminal.length)

end Machine

end SmartAccount
