import SmartAccount.Runtime

/-!
# The simple sequencer

The smallest sequencer of the repository: one yielded receipt per registered step, a release
that resumes the first step, and a callback that resumes the next one when the step before it
has resolved.  It has no owner, no delegate and no policies; every account is its own caller,
and a caller's steps and queue are kept under its account id.
-/

namespace SmartAccount.SimpleSequencer

open Foundation

/-! ## Gas constants -/

def stepResolveCallbackGasTgas : Nat := 20
def stepResumeOverheadTgas : Nat := 20
def maxContractGasTgas : Nat := 1000
def stepGasSlackTgas : Nat := 20
def maxStepGasTgas : Nat :=
  maxContractGasTgas - stepResolveCallbackGasTgas - stepResumeOverheadTgas - stepGasSlackTgas

/-! ## State -/

/-- A step; as an input it has the same fields. -/
structure Step where
  stepId : String
  targetId : AccountId
  methodName : String
  args : Bytes
  attachedDepositYocto : Nat
  gasTgas : Nat
deriving DecidableEq

structure RegisteredStep where
  yieldId : YieldId
  call : Step
  createdAtMs : Nat
deriving DecidableEq

structure Contract where
  registeredSteps : IterableMap String RegisteredStep
  sequenceQueue : IterableMap String (List String)

def sequenceQueueKey (callerId : AccountId) : String := callerId.val

def registeredStepKey (callerId : AccountId) (stepId : String) : String :=
  callerId.val ++ "#" ++ stepId

/-! ## The contract on its host -/

/-- A private callback, with its decoded arguments. -/
inductive Callback where
  | onStepResumed (callerId : AccountId) (stepId : String)
  | onStepResolved (callerId : AccountId) (stepId : String)
deriving DecidableEq

structure Then where
  callback : Callback
  gasTgas : Nat
deriving DecidableEq

structure Promise where
  call : FunctionCall
  thens : List Then

/-- The static gas attached to all function calls of the promise. -/
def Promise.staticGas (p : Promise) : Nat := p.call.gasTgas + (p.thens.map Then.gasTgas).sum

inductive PromiseOrValue where
  | value (bytes : Bytes)
  | promise (p : Promise)

structure Flight where
  head : Head
  thens : List Then

inductive TraceEvent where
  /-- The chain of the flight now waits for this call. -/
  | called (flight : Nat) (fc : FunctionCall)
  /-- The contract resumed a yield. -/
  | resumed (yieldId : YieldId)
deriving DecidableEq

structure Sequencer where
  contract : Contract
  pool : Pool Flight
  trace : List TraceEvent

namespace Sequencer

/-- A freshly deployed contract. -/
def new : Sequencer := ⟨⟨.empty, .empty⟩, .empty, []⟩

def note (s : Sequencer) (event : TraceEvent) : Sequencer :=
  { s with trace := s.trace ++ [event] }

def getStep (s : Sequencer) (callerId : AccountId) (stepId : String) : Option RegisteredStep :=
  s.contract.registeredSteps.get (registeredStepKey callerId stepId)

def removeStep (s : Sequencer) (callerId : AccountId) (stepId : String) : Sequencer :=
  { s with contract := { s.contract with
      registeredSteps :=
        s.contract.registeredSteps.remove (registeredStepKey callerId stepId) } }

def setQueue (s : Sequencer) (callerId : AccountId) (waiting : List String) : Sequencer :=
  { s with contract := { s.contract with
      sequenceQueue := s.contract.sequenceQueue.insert (sequenceQueueKey callerId) waiting } }

/-- `clear_queue_for_caller`. -/
def clearQueue (s : Sequencer) (callerId : AccountId) : Sequencer :=
  { s with contract := { s.contract with
      sequenceQueue := s.contract.sequenceQueue.remove (sequenceQueueKey callerId) } }

/-- `YieldId::resume`. -/
def resumeYield (s : Sequencer) (yieldId : YieldId) : Option Sequencer :=
  match s.pool.get yieldId with
  | some ⟨.yielded, thens⟩ =>
      some { s with
        pool := s.pool.update yieldId ⟨.done (.successful (utf8Bytes "null")), thens⟩ }
  | _ => none

end Sequencer

/-! ## Internal functions -/

def validateStep (call : Step) : Except String Unit := do
  require (call.stepId ≠ "") "step_id cannot be empty"
  require (call.methodName ≠ "") "method_name cannot be empty"
  require (0 < call.gasTgas) "gas_tgas must be greater than zero"
  require (call.gasTgas ≤ maxStepGasTgas) "gas_tgas is too large for a yielded direct call"

/-- `step_from_raw`. -/
def stepFromRaw (input : Step) : Except String Step := do
  validateStep input
  .ok input

def notYielded (stepId : String) : String :=
  "step_id '" ++ stepId ++ "' not yielded for this caller"

def dispatchPromiseForCall (call : Step) : Promise :=
  ⟨⟨call.targetId, call.methodName, .raw call.args, call.attachedDepositYocto, call.gasTgas⟩, []⟩

namespace Sequencer

/-- `register_step_for_caller`, at block time `now` and with the unspent gas that the yield
gets beside its static gas. -/
def registerStepForCaller (now spareGas : Nat) (s : Sequencer) (callerId : AccountId)
    (call : Step) : Except String Sequencer := do
  require (s.getStep callerId call.stepId).isNone "step_id already yielded for this caller"
  .ok { s with
    contract := { s.contract with
      registeredSteps := s.contract.registeredSteps.insert
        (registeredStepKey callerId call.stepId) ⟨s.pool.next, call, now⟩ }
    pool := s.pool.create ⟨.yielded, [⟨.onStepResumed callerId call.stepId,
      call.gasTgas + stepResolveCallbackGasTgas + stepResumeOverheadTgas + spareGas⟩]⟩ }

/-- `resume_registered_step`. -/
def resumeRegisteredStep (s : Sequencer) (callerId : AccountId) (stepId : String) :
    Except String Sequencer :=
  match s.getStep callerId stepId with
  | none => .error (notYielded stepId)
  | some yielded =>
      match s.resumeYield yielded.yieldId with
      | none => .error ("failed to resume yielded step '" ++ stepId ++ "'")
      | some resumed => .ok (resumed.note (.resumed yielded.yieldId))

def checkOrder (s : Sequencer) (callerId : AccountId) : List String → Except String Unit
  | [] => .ok ()
  | stepId :: rest => do
      require (s.getStep callerId stepId).isSome (notYielded stepId)
      checkOrder s callerId rest

/-- `start_sequence_release_for_caller`, with the number of steps it returns.  A step that
cannot be resumed panics the call, so the queue it removes before that is never seen. -/
def startSequenceReleaseForCaller (s : Sequencer) (callerId : AccountId) (order : List String) :
    Except String (Sequencer × Nat) := do
  require (order ≠ []) "order cannot be empty"
  require (s.contract.sequenceQueue.get (sequenceQueueKey callerId)).isNone
    "caller already has a run in flight"
  checkOrder s callerId order
  match order with
  | [] => .error "checked non-empty"
  | first :: rest => do
      let queued := if rest ≠ [] then s.setQueue callerId rest else s
      let resumed ← queued.resumeRegisteredStep callerId first
      .ok (resumed, order.length)

/-- `take_next_queued_step`: the head of the queue, and the queue without it. -/
def takeNextQueuedStep (s : Sequencer) (callerId : AccountId) : Option String × Sequencer :=
  match s.contract.sequenceQueue.get (sequenceQueueKey callerId) with
  | none => (none, s)
  | some [] => (none, s.clearQueue callerId)
  | some [next] => (some next, s.clearQueue callerId)
  | some (next :: remaining) => (some next, s.setQueue callerId remaining)

def progressAfterSuccessfulResolution (s : Sequencer) (callerId : AccountId) : Sequencer :=
  match s.takeNextQueuedStep callerId with
  | (some next, taken) =>
      match taken.resumeRegisteredStep callerId next with
      | .ok resumed => resumed
      | .error _ => taken.clearQueue callerId
  | (none, taken) => taken

/-! ## Methods -/

/-- The registration loop of `execute_steps`. -/
def registerInputs (now spareGas : Nat) (s : Sequencer) (callerId : AccountId) :
    List Step → Except String Sequencer
  | [] => .ok s
  | input :: rest => do
      let call ← stepFromRaw input
      let registered ← registerStepForCaller now spareGas s callerId call
      registerInputs now spareGas registered callerId rest

def executeSteps (now spareGas : Nat) (s : Sequencer) (predecessor : AccountId)
    (steps : List Step) : Except String (Sequencer × Nat) := do
  require (steps ≠ []) "execute_steps requires at least one step"
  let order := steps.map Step.stepId
  Machine.checkDistinct [] order
  let registered ← registerInputs now spareGas s predecessor steps
  startSequenceReleaseForCaller registered predecessor order

def registerStep (now spareGas : Nat) (s : Sequencer) (predecessor : AccountId) (input : Step) :
    Except String Sequencer := do
  let call ← stepFromRaw input
  registerStepForCaller now spareGas s predecessor call

def runSequence (s : Sequencer) (predecessor callerId : AccountId) (order : List String) :
    Except String (Sequencer × Nat) := do
  require (predecessor = callerId) "caller_id must match predecessor"
  startSequenceReleaseForCaller s callerId order

inductive Method where
  | executeSteps (steps : List Step)
  | registerStep (input : Step)
  | runSequence (callerId : AccountId) (order : List String)

/-- A call of a public method, none of which takes a deposit. -/
def call (env : Env) (s : Sequencer) (method : Method) : Except String Sequencer := do
  require (env.attachedDeposit = 0) "Method doesn't accept deposit"
  match method with
  | .executeSteps steps =>
      (executeSteps env.now env.spareGas s env.predecessor steps).map Prod.fst
  | .registerStep input => registerStep env.now env.spareGas s env.predecessor input
  | .runSequence callerId order => (runSequence s env.predecessor callerId order).map Prod.fst

def transact (env : Env) (s : Sequencer) (method : Method) : Sequencer :=
  match call env s method with
  | .ok called => called
  | .error _ => s

/-! ## Callbacks -/

def onStepResumed (s : Sequencer) (callerId : AccountId) (stepId : String)
    (resumeSignal : PromiseResult) : Sequencer × PromiseOrValue :=
  match s.getStep callerId stepId with
  | none => (s, .value (utf8Bytes "null"))
  | some yielded =>
      match resumeSignal with
      | .failed =>
          ((s.removeStep callerId stepId).clearQueue callerId, .value (utf8Bytes "null"))
      | .successful _ =>
          let downstream := dispatchPromiseForCall yielded.call
          (s, .promise { downstream with
            thens := downstream.thens ++
              [⟨.onStepResolved callerId stepId, stepResolveCallbackGasTgas⟩] })

def onStepResolved (s : Sequencer) (callerId : AccountId) (stepId : String)
    (result : PromiseResult) : Sequencer :=
  let removed := s.removeStep callerId stepId
  match result.checked with
  | .ok _ => removed.progressAfterSuccessfulResolution callerId
  | .error _ => removed.clearQueue callerId

def runCallback (s : Sequencer) (callback : Callback) (result : PromiseResult) :
    Sequencer × PromiseOrValue :=
  match callback with
  | .onStepResumed callerId stepId => s.onStepResumed callerId stepId result
  | .onStepResolved callerId stepId => (s.onStepResolved callerId stepId result, .value [])

/-! ## Runs -/

def timeout (s : Sequencer) (id : Nat) : Sequencer :=
  match s.pool.get id with
  | some ⟨.yielded, thens⟩ => { s with pool := s.pool.update id ⟨.done .failed, thens⟩ }
  | _ => s

def settle (s : Sequencer) (id : Nat) (f : Flight) : Sequencer :=
  { s with pool := if f.thens = [] then s.pool.remove id else s.pool.update id f }

/-- Run the next callback of a flight and settle the flight.  The account attaches the deposit
of a promise from its balance, and a callback burns gas beside the static gas of its promise;
where either does not suffice, the callback fails. -/
def runThen (balance : Nat) (s : Sequencer) (id : Nat) (t : Then) (rest : List Then)
    (result : PromiseResult) : Sequencer :=
  match s.runCallback t.callback result with
  | (ran, .value bytes) => ran.settle id ⟨.done (.successful bytes), rest⟩
  | (ran, .promise p) =>
      if p.call.depositYocto ≤ balance ∧ p.staticGas < t.gasTgas then
        (ran.note (.called id p.call)).settle id ⟨.call p.call, p.thens ++ rest⟩
      else s.settle id ⟨.done .failed, rest⟩

def deliver (balance : Nat) (s : Sequencer) (id : Nat) (answer : PromiseResult) : Sequencer :=
  match s.pool.get id with
  | some ⟨head, t :: rest⟩ =>
      match head.outcome answer with
      | some result => runThen balance s id t rest result
      | none => s
  | _ => s

/-- The host ends the next callback of a flight for another reason. -/
def abort (s : Sequencer) (id : Nat) (answer : PromiseResult) : Sequencer :=
  match s.pool.get id with
  | some ⟨head, _ :: rest⟩ =>
      match head.outcome answer with
      | some _ => s.settle id ⟨.done .failed, rest⟩
      | none => s
  | _ => s

inductive Op where
  | transact (env : Env) (method : Method)
  | timeout (id : Nat)
  | deliver (balance : Nat) (id : Nat) (answer : PromiseResult)

def step (s : Sequencer) : Op → Sequencer
  | .transact env method => transact env s method
  | .timeout id => s.timeout id
  | .deliver balance id answer => deliver balance s id answer

def run (s : Sequencer) (ops : List Op) : Sequencer := ops.foldl step s

/-- What the next callback of a flight attaches to the call it returns. -/
def attaches (s : Sequencer) (id : Nat) (answer : PromiseResult) : Nat :=
  match s.pool.get id with
  | some ⟨head, t :: _⟩ =>
      match head.outcome answer with
      | some result =>
          match (s.runCallback t.callback result).2 with
          | .promise p => p.call.depositYocto
          | .value _ => 0
      | none => 0
  | _ => 0

end Sequencer

/-! ## The account -/

/-- What the calls of these events attach. -/
def attached (events : List TraceEvent) : Nat :=
  (events.map fun
    | .called _ fc => fc.depositYocto
    | .resumed _ => 0).sum

/-- The contract on its account.  No method takes a deposit: what the steps attach, whoever
registered them, is paid from the one balance. -/
structure Account where
  sequencer : Sequencer
  balance : Nat

namespace Account

/-- The contract freshly deployed. -/
def deployed (balance : Nat) : Account := ⟨.new, balance⟩

inductive Op where
  | transact (env : Env) (method : Sequencer.Method)
  | timeout (id : Nat)
  | deliver (id : Nat) (answer : PromiseResult)
  | abort (id : Nat) (answer : PromiseResult)
  /-- The account can spend more: a transfer or a reward, or a flight's refund. -/
  | credit (flight : Option Nat) (amount : Nat)
  /-- The account can spend less: of what it has, storage ties up more. -/
  | debit (flight : Option Nat) (amount : Nat)

/-- The next callback of a flight runs; what its call attaches leaves the balance. -/
def deliver (a : Account) (id : Nat) (answer : PromiseResult) : Account :=
  let ran := a.sequencer.deliver a.balance id answer
  ⟨ran, a.balance - attached (ran.trace.drop a.sequencer.trace.length)⟩

def step (a : Account) : Op → Account
  | .transact env method => { a with sequencer := a.sequencer.transact env method }
  | .timeout id => { a with sequencer := a.sequencer.timeout id }
  | .deliver id answer => a.deliver id answer
  | .abort id answer => { a with sequencer := a.sequencer.abort id answer }
  | .credit _ amount => { a with balance := a.balance + amount }
  | .debit _ amount => { a with balance := a.balance - amount }

def run (a : Account) (ops : List Op) : Account := ops.foldl step a

/-- The balance covers what an operation attaches. -/
def covers (a : Account) : Op → Bool
  | .deliver id answer => a.sequencer.attaches id answer ≤ a.balance
  | _ => true

end Account

end SmartAccount.SimpleSequencer
