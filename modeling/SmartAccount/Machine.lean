import SmartAccount.Events
import SmartAccount.Foundation.Pool

/-!
# The contract on its host

`Machine` is the contract together with what the host keeps for it: the yields and
promise chains in flight, the outgoing receipts nobody waits for, and the trace of
what happened so far.

A promise chain in flight is a `Flight`: what it waits for, and the callbacks of this
contract still to run behind it, each with the static gas attached to it.  A yield is
a flight that waits for a resume.  The identifier of a flight never changes, so a
yield id names one registered step's whole journey from its registration to its
`on_step_resolved`.
-/

namespace SmartAccount

open Foundation

/-! ## What one execution reads from the host -/

/-- A public key, by its canonical text form. -/
abbrev PublicKey := String

/-- What the host fixes for the whole life of the contract. -/
structure Host where
  /-- `current_account_id`. -/
  currentAccountId : AccountId
  /-- Parsing a public key is the SDK's. -/
  parsePublicKey : String → Option PublicKey

structure Env where
  predecessor : AccountId
  signerId : AccountId
  signerPk : PublicKey
  /-- `block_timestamp_ms`. -/
  now : Nat
  attachedDeposit : Nat
  accountBalance : Nat
  /-- The share of unspent gas, in TGas, that `GasWeight::default()` adds to each yield
  created by this execution. -/
  spareGas : Nat

/-! ## Calls and promises -/

/-- Function-call arguments.  The contract's own JSON envelopes are kept as the record
they encode. -/
inductive CallArgs where
  | raw (bytes : Bytes)
  /-- `encode_adapter_dispatch_args`. -/
  | adapterCall (call : AdapterDispatchInput)
  /-- The envelope of `authorizer.dispatch`. -/
  | dispatch (targetId : AccountId) (methodName : String) (args : CallArgs) (gasTgas : Nat)
  /-- The envelope of `authorizer.add_session_key`. -/
  | addSessionKey (publicKey : PublicKey) (allowanceYocto : Nat) (receiverId : AccountId)
      (methodName : String)
  /-- The envelope of `authorizer.delete_session_key`. -/
  | deleteSessionKey (publicKey : PublicKey)
deriving DecidableEq

structure FunctionCall where
  receiverId : AccountId
  methodName : String
  args : CallArgs
  depositYocto : Nat
  gasTgas : Nat
deriving DecidableEq

/-- A private callback of this contract, with its decoded arguments. -/
inductive Callback where
  | onStepResumed (sequenceNamespace stepId : String)
  | onPreGateChecked (sequenceNamespace stepId : String)
  | onAssertedRunPostcheck (sequenceNamespace stepId : String) (assertionId : AccountId)
      (assertionMethod : String) (assertionArgs expectedReturn : Bytes) (assertionGasTgas : Nat)
  | onAssertedEvaluatePostcheck (sequenceNamespace stepId : String) (expectedReturn : Bytes)
  | onStepResolved (sequenceNamespace stepId : String)
deriving DecidableEq

namespace Callback

def sequenceNamespace : Callback → String
  | onStepResumed ns _ => ns
  | onPreGateChecked ns _ => ns
  | onAssertedRunPostcheck ns _ _ _ _ _ _ => ns
  | onAssertedEvaluatePostcheck ns _ _ => ns
  | onStepResolved ns _ => ns

def stepId : Callback → String
  | onStepResumed _ sid => sid
  | onPreGateChecked _ sid => sid
  | onAssertedRunPostcheck _ sid _ _ _ _ _ => sid
  | onAssertedEvaluatePostcheck _ sid _ => sid
  | onStepResolved _ sid => sid

end Callback

/-- A callback chained with `.then`, and its static gas in TGas. -/
structure Then where
  callback : Callback
  gasTgas : Nat
deriving DecidableEq

/-- A promise the contract builds: one function call and the callbacks behind it. -/
structure Promise where
  call : FunctionCall
  thens : List Then
deriving DecidableEq

namespace Promise

def andThen (p : Promise) (t : Then) : Promise := { p with thens := p.thens ++ [t] }

/-- The static gas attached to all function calls of the promise. -/
def staticGas (p : Promise) : Nat := p.call.gasTgas + (p.thens.map Then.gasTgas).sum

end Promise

inductive PromiseOrValue where
  | value (bytes : Bytes)
  | promise (p : Promise)

/-- The raw outcome of a receipt. -/
inductive PromiseResult where
  | successful (bytes : Bytes)
  | failed
deriving DecidableEq

def maxCallbackResultBytes : Nat := 16 * 1024

/-- `promise_result_checked(0, MAX_CALLBACK_RESULT_BYTES)`. -/
def PromiseResult.checked : PromiseResult → Except PromiseError Bytes
  | successful bytes =>
      if bytes.length ≤ maxCallbackResultBytes then .ok bytes else .error (.tooLong bytes.length)
  | failed => .error .failed

/-! ## Flights and receipts -/

inductive Head where
  /-- A yield nobody has resumed. -/
  | yielded
  /-- A function call whose outcome is outstanding. -/
  | call (fc : FunctionCall)
  /-- A known outcome, to be handed to the next callback. -/
  | done (result : PromiseResult)
deriving DecidableEq

structure Flight where
  head : Head
  thens : List Then
deriving DecidableEq

inductive Action where
  | functionCall (fc : FunctionCall)
  | addKey (publicKey : PublicKey) (allowanceYocto : Nat) (receiverId : AccountId)
      (methodName : String)
  | deleteKey (publicKey : PublicKey)
deriving DecidableEq

/-- An outgoing receipt without a callback.  The signer is the transaction's. -/
structure Receipt where
  receiverId : AccountId
  signerId : AccountId
  action : Action
deriving DecidableEq

/-! ## The trace -/

inductive TraceEvent where
  /-- A step was copied into `registered_steps` with a fresh yield of this static gas. -/
  | registered (sequenceNamespace : String) (yieldId : YieldId) (call : Step) (gasTgas : Nat)
  /-- A release was accepted. -/
  | released (sequenceNamespace : String) (order : List String)
  /-- The contract resumed a yield as step `index` of release `release` of the namespace. -/
  | resumed (sequenceNamespace : String) (release index : Nat) (stepId : String)
      (yieldId : YieldId)
  /-- A callback ran on this outcome and its changes were committed. -/
  | delivered (flight : Nat) (callback : Callback) (result : PromiseResult)
  /-- A callback failed and its changes were rolled back. -/
  | rolledBack (flight : Nat) (callback : Callback) (result : PromiseResult)
  /-- The chain of the flight now waits for this call. -/
  | called (sequenceNamespace : String) (flight : Nat) (fc : FunctionCall)
  /-- The target or adapter call of a registered copy was dispatched with these arguments. -/
  | dispatched (sequenceNamespace stepId : String) (yieldId : YieldId) (call : Step)
      (args : Bytes)
  /-- The contract emitted an event, in a callback of this flight or in a transaction. -/
  | emitted (flight : Option Nat) (event : Event)
deriving DecidableEq

def TraceEvent.sequenceNamespace : TraceEvent → Option String
  | registered ns _ _ _ => some ns
  | released ns _ => some ns
  | resumed ns _ _ _ _ => some ns
  | delivered _ cb _ => some cb.sequenceNamespace
  | rolledBack _ cb _ => some cb.sequenceNamespace
  | called ns _ _ => some ns
  | dispatched ns _ _ _ _ => some ns
  | emitted _ event => event.sequenceNamespace

abbrev Trace := List TraceEvent

def TraceEvent.isRegistered : TraceEvent → Bool
  | registered _ _ _ _ => true
  | _ => false

def TraceEvent.isReleased (ns : String) : TraceEvent → Bool
  | released ns' _ => ns' = ns
  | _ => false

def TraceEvent.isResumed (ns : String) (release : Nat) : TraceEvent → Bool
  | resumed ns' release' _ _ _ => ns' = ns ∧ release' = release
  | _ => false

/-- Events that release or resume something. -/
def TraceEvent.isMark : TraceEvent → Bool
  | released _ _ => true
  | resumed _ _ _ _ _ => true
  | _ => false

/-- Events that neither register, release nor resume anything. -/
def TraceEvent.isPlain (event : TraceEvent) : Bool := !event.isRegistered && !event.isMark

/-- The events of the contract, oldest first. -/
def Trace.events (t : Trace) : List Event :=
  t.filterMap fun
    | .emitted _ event => some event
    | _ => none

/-- The orders of the namespace's releases, oldest first. -/
def Trace.orders (t : Trace) (ns : String) : List (List String) :=
  t.filterMap fun
    | .released ns' order => if ns' = ns then some order else none
    | _ => none

/-- How many releases the namespace has had. -/
def Trace.releaseCount (t : Trace) (ns : String) : Nat := t.countP (TraceEvent.isReleased ns)

/-- How many yields the contract has resumed for one release. -/
def Trace.resumeCount (t : Trace) (ns : String) (release : Nat) : Nat :=
  t.countP (TraceEvent.isResumed ns release)

/-! ## The machine -/

structure Machine where
  host : Host
  contract : Contract
  pool : Pool Flight
  receipts : List Receipt
  /-- The flight whose callback is executing; none in a transaction. -/
  executing : Option Nat
  trace : Trace

namespace Machine

/-- A freshly deployed contract. -/
def init (host : Host) (ownerId : AccountId) (authorizerId : Option AccountId) : Machine where
  host := host
  contract := .newWithOwnerAndAuthorizer ownerId authorizerId
  pool := .empty
  receipts := []
  executing := none
  trace := []

def note (m : Machine) (event : TraceEvent) : Machine :=
  { m with trace := m.trace ++ [event] }

/-- `emit_event`. -/
def emit (m : Machine) (event : Event) : Machine := m.note (.emitted m.executing event)

def withContract (m : Machine) (c : Contract) : Machine := { m with contract := c }

/-- Record the resume of a yield for the namespace's latest release. -/
def noteResumed (m : Machine) (ns stepId : String) (yieldId : YieldId) : Machine :=
  let release := Trace.releaseCount m.trace ns - 1
  m.note (.resumed ns release (Trace.resumeCount m.trace ns release) stepId yieldId)

/-- `Promise::new_yield`. -/
def newYield (m : Machine) (t : Then) : Machine × YieldId :=
  ({ m with pool := m.pool.create ⟨.yielded, [t]⟩ }, m.pool.next)

/-- `YieldId::resume`, with the payload of `encode_resume_payload`: it succeeds on a
yield that is neither resumed nor timed out. -/
def resumeYield (m : Machine) (yieldId : YieldId) : Option Machine :=
  match m.pool.get yieldId with
  | some ⟨.yielded, thens⟩ =>
      some { m with
        pool := m.pool.update yieldId ⟨.done (.successful (utf8Bytes "null")), thens⟩ }
  | _ => none

/-- Send a receipt without waiting for it. -/
def send (m : Machine) (env : Env) (receiverId : AccountId) (action : Action) : Machine :=
  { m with receipts := m.receipts ++ [⟨receiverId, env.signerId, action⟩] }

end Machine

end SmartAccount
