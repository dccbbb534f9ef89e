import SmartAccount.Callbacks
import SmartAccount.Keys

/-!
# The runtime

One step of the world around the contract: a transaction or receipt calls a public
method, a yield times out, or the outcome a chain waits for is delivered to its next
callback, which runs or is ended by the host.  The outcome of an outstanding call, the
order of steps and the environment of each execution are free, so a run is any list of
steps.

A failed execution leaves no change behind: a transaction that panics does nothing,
and a callback that panics, or that cannot create the promise it builds, or that the
host ends, hands a failure to the next callback of its chain.
-/

namespace SmartAccount

open Foundation

/-! ## Public methods -/

inductive PublicCall where
  | setAuthorizer (authorizerId : Option AccountId)
  | setAuthorizedExecutor (authorizedExecutor : Option AccountId)
  | executeSteps (steps : List StepInput)
  | registerStep (input : StepInput)
  | runSequence (callerId : AccountId) (order : List String)
  | saveSequenceTemplate (sequenceId : String) (calls : List StepInput)
  | deleteSequenceTemplate (sequenceId : String)
  | createBalanceTrigger (triggerId sequenceId : String) (minBalanceYocto maxRuns : Nat)
  | deleteBalanceTrigger (triggerId : String)
  | executeTrigger (triggerId : String)
  | pruneFinishedAutomationRuns
  | enrollSession (sessionPublicKey : String) (expiresAtMs : Nat)
      (allowedTriggerIds : Option (List String)) (maxFireCount allowanceYocto : Nat)
      (label : Option String)
  | revokeSession (sessionPublicKey : String)
  | revokeExpiredSessions
  | enrollProxyKey (sessionPublicKey : String) (expiresAtMs : Nat)
      (allowedTargets : List AccountId) (allowedMethods : Option (List String))
      (attachYocto maxGasTgas maxCallCount allowanceYocto : Nat) (label : Option String)
  | proxyCall (target : AccountId) (method : String) (args : Bytes)
  | revokeProxyKey (sessionPublicKey : String)
  | revokeExpiredProxyKeys

/-- `#[payable]`. -/
def PublicCall.payable : PublicCall → Bool
  | enrollSession _ _ _ _ _ _ => true
  | enrollProxyKey _ _ _ _ _ _ _ _ _ => true
  | _ => false

namespace Machine

/-- The method a public call names. -/
def execute (env : Env) (m : Machine) : PublicCall → Except String Machine
  | .setAuthorizer authorizerId => setAuthorizer env m authorizerId
  | .setAuthorizedExecutor executor => setAuthorizedExecutor env m executor
  | .executeSteps steps => (executeSteps env m steps).map Prod.fst
  | .registerStep input => registerStep env m input
  | .runSequence callerId order => (runSequence env m callerId order).map Prod.fst
  | .saveSequenceTemplate sequenceId calls => saveSequenceTemplate env m sequenceId calls
  | .deleteSequenceTemplate sequenceId => deleteSequenceTemplate env m sequenceId
  | .createBalanceTrigger triggerId sequenceId minBalance maxRuns =>
      createBalanceTrigger env m triggerId sequenceId minBalance maxRuns
  | .deleteBalanceTrigger triggerId => deleteBalanceTrigger env m triggerId
  | .executeTrigger triggerId => (executeTrigger env m triggerId).map Prod.fst
  | .pruneFinishedAutomationRuns => .ok (pruneFinishedAutomationRuns m).1
  | .enrollSession pk expires allowed maxFire allowance label =>
      enrollSession env m pk expires allowed maxFire allowance label
  | .revokeSession pk => revokeSession env m pk
  | .revokeExpiredSessions => .ok (revokeExpiredSessions env m).1
  | .enrollProxyKey pk expires targets methods attach maxGas maxCall allowance label =>
      enrollProxyKey env m pk expires targets methods attach maxGas maxCall allowance label
  | .proxyCall target method args => proxyCall env m target method args
  | .revokeProxyKey pk => revokeProxyKey env m pk
  | .revokeExpiredProxyKeys => .ok (revokeExpiredProxyKeys env m).1

/-- A call of a public method, with the SDK's check of the attached deposit. -/
def call (env : Env) (m : Machine) (method : PublicCall) : Except String Machine := do
  require (method.payable || env.attachedDeposit = 0) "Method doesn't accept deposit"
  execute env m method

def transact (env : Env) (m : Machine) (method : PublicCall) : Machine :=
  match call env m method with
  | .ok m' => m'
  | .error _ => m

/-! ## Yields and callbacks -/

/-- The timeout of a yield nobody resumed. -/
def timeout (m : Machine) (id : Nat) : Machine :=
  match m.pool.get id with
  | some ⟨.yielded, thens⟩ => { m with pool := m.pool.update id ⟨.done .failed, thens⟩ }
  | _ => m

@[simp] theorem timeout_contract (m : Machine) (id : Nat) :
    (m.timeout id).contract = m.contract := by
  unfold timeout
  split <;> rfl

@[simp] theorem timeout_trace (m : Machine) (id : Nat) : (m.timeout id).trace = m.trace := by
  unfold timeout
  split <;> rfl

/-- Put a flight into its next form; with no callback left it is over. -/
def settle (m : Machine) (id : Nat) (f : Flight) : Machine :=
  { m with
    pool := if f.thens = [] then m.pool.remove id else m.pool.update id f
    executing := none }

end Machine

/-- The outcome a head hands on, given what an outstanding call would return. -/
def Head.outcome (answer : PromiseResult) : Head → Option PromiseResult
  | yielded => none
  | call _ => some answer
  | done result => some result

/-- Why the host does not create the promise that a callback hands on: the account cannot pay
what its call attaches, or the callback, which burns gas itself, was not given more than the
static gas of its calls. -/
def PromiseOrValue.refusal (gasTgas balance : Nat) : PromiseOrValue → Option String
  | value _ => none
  | promise p =>
      if balance < p.call.depositYocto then some "Exceeded the account balance."
      else if gasTgas ≤ p.staticGas then some "Exceeded the prepaid gas."
      else none

theorem PromiseOrValue.refusal_promise {gasTgas balance : Nat} {p : Promise} :
    (promise p).refusal gasTgas balance = none ↔
      p.call.depositYocto ≤ balance ∧ p.staticGas < gasTgas := by
  show (if balance < p.call.depositYocto then some _ else
    if gasTgas ≤ p.staticGas then some _ else none) = none ↔ _
  by_cases poor : balance < p.call.depositYocto
  · simp [poor, Nat.not_le_of_lt poor]
  · by_cases short : gasTgas ≤ p.staticGas
    · simp [poor, short, Nat.not_lt_of_le short]
    · simp [poor, short, Nat.le_of_not_lt poor, Nat.lt_of_not_le short]

namespace Machine

/-- One execution of a callback, with the gas attached to it.  What it logged stays where its
promise cannot be created. -/
def attempt (env : Env) (m : Machine) (id : Nat) (t : Then) (result : PromiseResult) :
    Except Panic (Machine × PromiseOrValue) := do
  let delivered := { m with executing := some id }.note (.delivered id t.callback result)
  let (m', out) ← runCallback env delivered t.callback result
  match out.refusal t.gasTgas env.accountBalance with
  | none => .ok (m', out)
  | some message => .error {
      message := message
      logged := m'.trace.events.drop delivered.trace.events.length }

/-- A callback that failed: its changes are gone, its logs stay. -/
def rollBack (m : Machine) (id : Nat) (t : Then) (result : PromiseResult) (panic : Panic) :
    Machine :=
  panic.logged.foldl emit
    ({ m with executing := some id }.note (.rolledBack id t.callback result))

/-- Logs are only traced. -/
theorem emits_eq (events : List Event) (m : Machine) :
    events.foldl emit m = { m with trace := (events.foldl emit m).trace } := by
  induction events generalizing m with
  | nil => rfl
  | cons event events ih => exact ih (m.emit event)

theorem rollBack_eq (m : Machine) (id : Nat) (t : Then) (result : PromiseResult) (panic : Panic) :
    m.rollBack id t result panic =
      { m with executing := some id, trace := (m.rollBack id t result panic).trace } :=
  emits_eq panic.logged _

/-- Run the next callback of a flight and settle the flight. -/
def runThen (env : Env) (m : Machine) (id : Nat) (t : Then) (rest : List Then)
    (result : PromiseResult) : Machine :=
  match attempt env m id t result with
  | .error panic => (rollBack m id t result panic).settle id ⟨.done .failed, rest⟩
  | .ok (m', .value bytes) => m'.settle id ⟨.done (.successful bytes), rest⟩
  | .ok (m', .promise p) =>
      (m'.note (.called t.callback.sequenceNamespace id p.call)).settle id
        ⟨.call p.call, p.thens ++ rest⟩

/-- Deliver the outcome a flight waits for to its next callback. -/
def deliver (env : Env) (m : Machine) (id : Nat) (answer : PromiseResult) : Machine :=
  match m.pool.get id with
  | some ⟨head, t :: rest⟩ =>
      match head.outcome answer with
      | some result => runThen env m id t rest result
      | none => m
  | _ => m

/-- The host ends the next callback of a flight, at any place where it has logged nothing: it burns
more gas than it was given, or its first lines take more than a receipt may log. -/
def abort (m : Machine) (id : Nat) (answer : PromiseResult) : Machine :=
  match m.pool.get id with
  | some ⟨head, t :: rest⟩ =>
      match head.outcome answer with
      | some result =>
          (rollBack m id t result { message := "The host ended the callback." }).settle id
            ⟨.done .failed, rest⟩
      | none => m
  | _ => m

end Machine

/-! ## Runs -/

inductive Op where
  | transact (env : Env) (method : PublicCall)
  | timeout (id : Nat)
  | deliver (env : Env) (id : Nat) (answer : PromiseResult)
  | abort (id : Nat) (answer : PromiseResult)

namespace Machine

def step (m : Machine) : Op → Machine
  | .transact env method => transact env m method
  | .timeout id => m.timeout id
  | .deliver env id answer => deliver env m id answer
  | .abort id answer => m.abort id answer

def run (m : Machine) (ops : List Op) : Machine := ops.foldl step m

@[simp] theorem run_nil (m : Machine) : m.run [] = m := rfl

@[simp] theorem run_cons (m : Machine) (op : Op) (ops : List Op) :
    m.run (op :: ops) = (m.step op).run ops := rfl

theorem run_append (m : Machine) (before after : List Op) :
    m.run (before ++ after) = (m.run before).run after := List.foldl_append ..

theorem run_snoc (m : Machine) (ops : List Op) (op : Op) :
    m.run (ops ++ [op]) = (m.run ops).step op := by
  rw [run_append, run_cons, run_nil]

/-- A state some run reaches from a fresh deployment. -/
def Reachable (m : Machine) : Prop :=
  ∃ host ownerId authorizerId ops, m = (init host ownerId authorizerId).run ops

theorem Reachable.init (host : Host) (ownerId : AccountId) (authorizerId : Option AccountId) :
    Reachable (Machine.init host ownerId authorizerId) :=
  ⟨host, ownerId, authorizerId, [], rfl⟩

theorem Reachable.run {m : Machine} (reachable : Reachable m) (ops : List Op) :
    Reachable (m.run ops) := by
  obtain ⟨host, ownerId, authorizerId, before, rfl⟩ := reachable
  exact ⟨host, ownerId, authorizerId, before ++ ops, (run_append ..).symm⟩

/-- What holds at deployment and is kept by every step holds in every reachable state. -/
theorem Reachable.induct {motive : Machine → Prop}
    (init : ∀ host ownerId authorizerId, motive (Machine.init host ownerId authorizerId))
    (step : ∀ m op, motive m → motive (m.step op)) {m : Machine} (reachable : Reachable m) :
    motive m := by
  obtain ⟨host, ownerId, authorizerId, ops, rfl⟩ := reachable
  have kept : ∀ (ops : List Op) (m : Machine), motive m → motive (m.run ops) := by
    intro ops
    induction ops with
    | nil => exact fun _ holds => holds
    | cons op ops ih => exact fun m holds => ih _ (step m op holds)
  exact kept ops _ (init host ownerId authorizerId)

end Machine

/-! ## A small deployment -/

def alice : AccountId := ⟨"alice.near", by decide +kernel⟩

/-- Alice's own account, where every text is a public key. -/
def aliceHost : Host := ⟨alice, some⟩

/-- Alice calls the contract herself, or a receipt of hers reaches it. -/
def aliceEnv : Env := ⟨alice, alice, "ed25519:alice", 0, 0, 1000, 0⟩

def market : AccountId := ⟨"market.near", by decide +kernel⟩

/-- A direct call of the market that asks for ten TGas. -/
def plainStep (stepId : String) : Step where
  stepId := stepId
  targetId := market
  methodName := "trade"
  args := []
  attachedDepositYocto := 0
  gasTgas := 10
  policy := .direct
  preGate := none
  saveResult := none
  argsTemplate := none

/-- An empty Ok outcome. -/
def okResult : PromiseResult := .successful []

/-- The contract freshly deployed to Alice's account. -/
def deployed : Machine := .init aliceHost alice none

theorem deployed_reachable : deployed.Reachable := .init aliceHost alice none

/-- A template of these calls and a trigger that may fire it five times. -/
def armed (calls : List Step) : Machine :=
  deployed.run [.transact aliceEnv (.saveSequenceTemplate "plan" calls),
    .transact aliceEnv (.createBalanceTrigger "daily" "plan" 0 5)]

theorem armed_reachable (calls : List Step) : (armed calls).Reachable := deployed_reachable.run _

/-- Alice fires the trigger. -/
def fire : Op := .transact aliceEnv (.executeTrigger "daily")

end SmartAccount
