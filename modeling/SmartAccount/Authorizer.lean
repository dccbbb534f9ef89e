import SmartAccount.Runtime

/-!
# The authorizer

The root-account contract of extension mode: an owner-curated allowlist of extensions,
and the three methods an armed extension may call in a transaction signed by the account
itself.  A call that the smart account wraps in `dispatch` comes out of the authorizer as
the call it makes itself in standalone mode (`extension_refines_standalone`).
-/

namespace SmartAccount

open Foundation

/-! ## State and environment -/

/-- The contract's root record; the extensions are an iterable set. -/
structure Authorizer where
  ownerId : AccountId
  extensions : IterableMap AccountId Unit

/-- What one execution of the authorizer reads from the host. -/
structure AuthorizerEnv where
  currentAccountId : AccountId
  signerId : AccountId
  predecessor : AccountId
  attachedDeposit : Nat
  prepaidGasTgas : Nat

inductive AuthorizerCall where
  | addExtension (accountId : AccountId)
  | removeExtension (accountId : AccountId)
  | setOwner (newOwner : AccountId)
  | dispatch (targetId : AccountId) (methodName : String) (args : CallArgs) (gasTgas : Nat)
  | addSessionKey (publicKey : PublicKey) (allowanceYocto : Nat) (receiverId : AccountId)
      (methodName : String)
  | deleteSessionKey (publicKey : PublicKey)

namespace AuthorizerCall

/-- `#[payable]`. -/
def payable : AuthorizerCall → Bool
  | dispatch _ _ _ _ => true
  | _ => false

/-- The call that one of the smart account's envelopes makes. -/
def decode (methodName : String) : CallArgs → Option AuthorizerCall
  | .dispatch targetId method args gasTgas =>
      if methodName = "dispatch" then some (dispatch targetId method args gasTgas) else none
  | .addSessionKey publicKey allowanceYocto receiverId method =>
      if methodName = "add_session_key" then
        some (addSessionKey publicKey allowanceYocto receiverId method)
      else none
  | .deleteSessionKey publicKey =>
      if methodName = "delete_session_key" then some (deleteSessionKey publicKey) else none
  | _ => none

end AuthorizerCall

namespace Authorizer

/-- `new_with_owner`. -/
def newWithOwner (ownerId : AccountId) : Authorizer := ⟨ownerId, .empty⟩

/-- `is_extension_armed`. -/
def isExtensionArmed (a : Authorizer) (accountId : AccountId) : Bool :=
  (a.extensions.get accountId).isSome

/-! ## Guards -/

/-- `assert_owner`. -/
def assertOwner (env : AuthorizerEnv) (a : Authorizer) : Except String Unit :=
  require (env.predecessor = a.ownerId)
    ("authorizer: only owner " ++ a.ownerId.val ++ " may call this method")

/-- `assert_extension_acting_as_self`. -/
def assertExtensionActingAsSelf (env : AuthorizerEnv) (a : Authorizer) : Except String Unit := do
  require (env.signerId = env.currentAccountId)
    ("authorizer: signer_id '" ++ env.signerId.val ++ "' must equal current_account_id '" ++
      env.currentAccountId.val ++ "' (user must sign the top-level tx on this account)")
  require (a.isExtensionArmed env.predecessor)
    ("authorizer: predecessor '" ++ env.predecessor.val ++
      "' is not in the authorized extensions list")

theorem assertExtensionActingAsSelf_eq_ok {env : AuthorizerEnv} {a : Authorizer} {u : Unit} :
    a.assertExtensionActingAsSelf env = .ok u ↔
      env.signerId = env.currentAccountId ∧ a.isExtensionArmed env.predecessor = true := by
  simp only [assertExtensionActingAsSelf, bind_eq_ok, require_eq_ok, decide_eq_true_eq,
    exists_and_left, exists_const]

/-! ## Methods -/

def addExtension (env : AuthorizerEnv) (a : Authorizer) (accountId : AccountId) :
    Except String Authorizer := do
  assertOwner env a
  .ok { a with extensions := a.extensions.insert accountId () }

def removeExtension (env : AuthorizerEnv) (a : Authorizer) (accountId : AccountId) :
    Except String Authorizer := do
  assertOwner env a
  .ok { a with extensions := a.extensions.remove accountId }

def setOwner (env : AuthorizerEnv) (a : Authorizer) (newOwner : AccountId) :
    Except String Authorizer := do
  assertOwner env a
  .ok { a with ownerId := newOwner }

/-- `dispatch`: forward the wrapped call with the deposit that came with it. -/
def dispatch (env : AuthorizerEnv) (a : Authorizer) (targetId : AccountId) (methodName : String)
    (args : CallArgs) (gasTgas : Nat) : Except String FunctionCall := do
  assertExtensionActingAsSelf env a
  require (0 < gasTgas) "gas_tgas must be positive"
  require (gasTgas ≤ env.prepaidGasTgas) "Exceeded the prepaid gas."
  .ok ⟨targetId, methodName, args, env.attachedDeposit, gasTgas⟩

def addSessionKey (env : AuthorizerEnv) (a : Authorizer) (publicKey : PublicKey)
    (allowanceYocto : Nat) (receiverId : AccountId) (methodName : String) :
    Except String Action := do
  assertExtensionActingAsSelf env a
  require (0 < allowanceYocto) "allowance_yocto must be > 0"
  .ok (.addKey publicKey allowanceYocto receiverId methodName)

def deleteSessionKey (env : AuthorizerEnv) (a : Authorizer) (publicKey : PublicKey) :
    Except String Action := do
  assertExtensionActingAsSelf env a
  .ok (.deleteKey publicKey)

/-- The method a call names, with the state it leaves and the action it returns. -/
def execute (env : AuthorizerEnv) (a : Authorizer) :
    AuthorizerCall → Except String (Authorizer × Option Action)
  | .addExtension accountId => (addExtension env a accountId).map fun a' => (a', none)
  | .removeExtension accountId => (removeExtension env a accountId).map fun a' => (a', none)
  | .setOwner newOwner => (setOwner env a newOwner).map fun a' => (a', none)
  | .dispatch targetId methodName args gasTgas =>
      (dispatch env a targetId methodName args gasTgas).map fun fc => (a, some (.functionCall fc))
  | .addSessionKey publicKey allowanceYocto receiverId methodName =>
      (addSessionKey env a publicKey allowanceYocto receiverId methodName).map
        fun action => (a, some action)
  | .deleteSessionKey publicKey =>
      (deleteSessionKey env a publicKey).map fun action => (a, some action)

/-- A call of a public method, with the SDK's check of the attached deposit. -/
def call (env : AuthorizerEnv) (a : Authorizer) (method : AuthorizerCall) :
    Except String (Authorizer × Option Action) := do
  require (method.payable || env.attachedDeposit = 0) "Method doesn't accept deposit"
  execute env a method

/-- The function call that a function call to the authorizer turns into.  The result of the
inner call takes the place of the outer one's. -/
def forward (a : Authorizer) (account signer predecessor : AccountId) (fc : FunctionCall) :
    Except String FunctionCall :=
  match AuthorizerCall.decode fc.methodName fc.args with
  | none => .error "Failed to deserialize input from JSON."
  | some method => do
      let (_, action) ←
        a.call ⟨account, signer, predecessor, fc.depositYocto, fc.gasTgas⟩ method
      match action with
      | some (.functionCall inner) => .ok inner
      | _ => .error "no function call"

/-- A promise once its call has been carried out by the authorizer. -/
def forwardPromise (a : Authorizer) (account signer predecessor : AccountId) (p : Promise) :
    Except String Promise := do
  let inner ← a.forward account signer predecessor p.call
  .ok { p with call := inner }

/-! ## Refinement -/

section Refinement

variable {a : Authorizer} {account signer predecessor : AccountId}

/-- What an accepted call does: the extensions and the owner are managed without an action, and
each of the other methods acts for an armed extension on the account's own signature. -/
inductive Performs (env : AuthorizerEnv) (a : Authorizer) :
    AuthorizerCall → Authorizer → Option Action → Prop
  | addExtension {accountId : AccountId} {a' : Authorizer} :
      addExtension env a accountId = .ok a' → Performs env a (.addExtension accountId) a' none
  | removeExtension {accountId : AccountId} {a' : Authorizer} :
      removeExtension env a accountId = .ok a' →
      Performs env a (.removeExtension accountId) a' none
  | setOwner {newOwner : AccountId} {a' : Authorizer} :
      setOwner env a newOwner = .ok a' → Performs env a (.setOwner newOwner) a' none
  | dispatch (targetId : AccountId) (methodName : String) (args : CallArgs) (gasTgas : Nat)
      (acting : env.signerId = env.currentAccountId ∧ a.isExtensionArmed env.predecessor = true) :
      Performs env a (.dispatch targetId methodName args gasTgas) a
        (some (.functionCall ⟨targetId, methodName, args, env.attachedDeposit, gasTgas⟩))
  | addSessionKey (publicKey : PublicKey) (allowanceYocto : Nat) (receiverId : AccountId)
      (methodName : String)
      (acting : env.signerId = env.currentAccountId ∧ a.isExtensionArmed env.predecessor = true) :
      Performs env a (.addSessionKey publicKey allowanceYocto receiverId methodName) a
        (some (.addKey publicKey allowanceYocto receiverId methodName))
  | deleteSessionKey (publicKey : PublicKey)
      (acting : env.signerId = env.currentAccountId ∧ a.isExtensionArmed env.predecessor = true) :
      Performs env a (.deleteSessionKey publicKey) a (some (.deleteKey publicKey))

theorem call_performs {env : AuthorizerEnv} {a' : Authorizer} {method : AuthorizerCall}
    {action : Option Action} (accepted : a.call env method = .ok (a', action)) :
    Performs env a method a' action := by
  simp only [Authorizer.call, bind_eq_ok] at accepted
  obtain ⟨-, -, executed⟩ := accepted
  cases method with
  | addExtension accountId =>
      obtain ⟨_, ran, eq⟩ := map_eq_ok.mp executed
      cases eq
      exact .addExtension ran
  | removeExtension accountId =>
      obtain ⟨_, ran, eq⟩ := map_eq_ok.mp executed
      cases eq
      exact .removeExtension ran
  | setOwner newOwner =>
      obtain ⟨_, ran, eq⟩ := map_eq_ok.mp executed
      cases eq
      exact .setOwner ran
  | dispatch targetId methodName args gasTgas =>
      obtain ⟨_, ran, eq⟩ := map_eq_ok.mp executed
      simp only [dispatch, bind_eq_ok] at ran
      obtain ⟨_, acting, _, _, _, _, made⟩ := ran
      cases made
      cases eq
      exact .dispatch _ _ _ _ (assertExtensionActingAsSelf_eq_ok.mp acting)
  | addSessionKey publicKey allowanceYocto receiverId methodName =>
      obtain ⟨_, ran, eq⟩ := map_eq_ok.mp executed
      simp only [addSessionKey, bind_eq_ok] at ran
      obtain ⟨_, acting, _, _, made⟩ := ran
      cases made
      cases eq
      exact .addSessionKey _ _ _ _ (assertExtensionActingAsSelf_eq_ok.mp acting)
  | deleteSessionKey publicKey =>
      obtain ⟨_, ran, eq⟩ := map_eq_ok.mp executed
      simp only [deleteSessionKey, bind_eq_ok] at ran
      obtain ⟨_, acting, made⟩ := ran
      cases made
      cases eq
      exact .deleteSessionKey _ (assertExtensionActingAsSelf_eq_ok.mp acting)

/-- Only the methods that check for an armed extension acting as the account act. -/
theorem call_acts {env : AuthorizerEnv} {a' : Authorizer} {method : AuthorizerCall}
    {action : Action} (accepted : a.call env method = .ok (a', some action)) :
    env.signerId = env.currentAccountId ∧ a.isExtensionArmed env.predecessor = true := by
  cases call_performs accepted with
  | dispatch _ _ _ _ acting => exact acting
  | addSessionKey _ _ _ _ acting => exact acting
  | deleteSessionKey _ acting => exact acting

/-- A key is asked for by the method of that name. -/
theorem call_addKey {env : AuthorizerEnv} {a' : Authorizer} {method : AuthorizerCall}
    {publicKey : PublicKey} {allowanceYocto : Nat} {receiverId : AccountId} {methodName : String}
    (accepted :
      a.call env method = .ok (a', some (.addKey publicKey allowanceYocto receiverId methodName))) :
    method = .addSessionKey publicKey allowanceYocto receiverId methodName := by
  cases call_performs accepted
  rfl

/-- A forwarded call was decoded and accepted. -/
theorem forward_ok {fc inner : FunctionCall}
    (forwarded : a.forward account signer predecessor fc = .ok inner) :
    ∃ method a', AuthorizerCall.decode fc.methodName fc.args = some method ∧
      a.call ⟨account, signer, predecessor, fc.depositYocto, fc.gasTgas⟩ method =
        .ok (a', some (.functionCall inner)) := by
  unfold forward at forwarded
  split at forwarded
  · cases forwarded
  · rename_i method decoded
    simp only [bind_eq_ok] at forwarded
    obtain ⟨⟨a', action⟩, accepted, emitted⟩ := forwarded
    refine ⟨method, a', decoded, ?_⟩
    dsimp only at emitted
    split at emitted
    · cases emitted
      exact accepted
    · cases emitted

/-- The authorizer unwraps a call of positive gas into the direct call. -/
theorem forward_buildCallPromise (signed : signer = account)
    (armed : a.isExtensionArmed predecessor = true) (targetId : AccountId) (methodName : String)
    (args : CallArgs) (depositYocto : Nat) {gasTgas : Nat} (positive : 0 < gasTgas) :
    a.forward account signer predecessor
        (buildCallPromise (some account) targetId methodName args depositYocto gasTgas).call =
      .ok (buildCallPromise none targetId methodName args depositYocto gasTgas).call := by
  subst signed
  simp [forward, buildCallPromise, AuthorizerCall.decode, Authorizer.call,
    AuthorizerCall.payable, execute, dispatch, assertExtensionActingAsSelf, armed, positive,
    authorizerHopOverheadTgas, require, bind, Except.bind, Except.map]

/-- Signed by another account, or from an extension that is not armed, nothing comes out. -/
theorem forward_refused (fc : FunctionCall)
    (refused : ¬ (signer = account ∧ a.isExtensionArmed predecessor = true)) :
    ∃ message, a.forward account signer predecessor fc = .error message := by
  cases forwarded : a.forward account signer predecessor fc with
  | error message => exact ⟨message, rfl⟩
  | ok inner =>
      obtain ⟨method, a', -, accepted⟩ := forward_ok forwarded
      exact absurd (call_acts accepted) refused

/-- For a valid step, what the authorizer makes of the promise of extension mode is the
promise of standalone mode: the same call with the same callbacks behind it.  Where the
extension is not armed or the signer is another account, no call is made. -/
theorem extension_refines_standalone {call : Step} (valid : validateStep call = .ok ())
    (a : Authorizer) (account signer predecessor : AccountId) (ns : String) :
    (dispatchPromiseForCall (some account) ns call).call.receiverId = account ∧
    (signer = account ∧ a.isExtensionArmed predecessor = true →
      a.forwardPromise account signer predecessor
          (dispatchPromiseForCall (some account) ns call) =
        .ok (dispatchPromiseForCall none ns call)) ∧
    (¬ (signer = account ∧ a.isExtensionArmed predecessor = true) →
      ∃ message, a.forwardPromise account signer predecessor
        (dispatchPromiseForCall (some account) ns call) = .error message) := by
  have positive : 0 < call.gasTgas := validateStep_gas valid
  refine ⟨?_, fun accepted => ?_, fun refused => ?_⟩
  · unfold dispatchPromiseForCall
    cases call.policy <;> rfl
  · obtain ⟨signed, armed⟩ := accepted
    unfold forwardPromise dispatchPromiseForCall
    cases call.policy with
    | direct =>
        simp only [forward_buildCallPromise signed armed _ _ _ _ positive]
        rfl
    | adapter adapterId adapterMethod =>
        simp only [forward_buildCallPromise signed armed _ _ _ _
          (Nat.add_pos_left positive adapterSequenceOverheadTgas)]
        rfl
    | asserted assertionId assertionMethod assertionArgs expectedReturn assertionGasTgas =>
        simp only [Promise.andThen, forward_buildCallPromise signed armed _ _ _ _ positive]
        rfl
  · obtain ⟨message, failed⟩ :=
      forward_refused (dispatchPromiseForCall (some account) ns call).call refused
    refine ⟨message, ?_⟩
    simp only [forwardPromise, failed]
    rfl

end Refinement

/-- Alice's account as the authorizer of an extension on the market's account. -/
def armedForMarket : Authorizer := ⟨alice, IterableMap.empty.insert market ()⟩

theorem extension_refines_standalone_asserted :
    armedForMarket.forwardPromise alice alice market
        (dispatchPromiseForCall (some alice) "manual:alice.near"
          { plainStep "a" with policy := .asserted market "check" [] [] 5 }) =
      .ok (dispatchPromiseForCall none "manual:alice.near"
        { plainStep "a" with policy := .asserted market "check" [] [] 5 }) :=
  (extension_refines_standalone (by decide) armedForMarket alice alice market
    "manual:alice.near").2.1 ⟨rfl, by decide⟩

end Authorizer

end SmartAccount
