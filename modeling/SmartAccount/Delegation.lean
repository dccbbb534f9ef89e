import SmartAccount.Methods
import SmartAccount.Authorizer

/-!
# What an execution delegate can reach

The calls that a transaction of an account may cause, followed from contract to contract:
the account calls first, this contract calls what its steps, gates, assertions and proxy keys
name, an authorizer forwards what it is asked to dispatch, and any other contract may call
anything in its own name.

A call reaches the contract in its owner's name only from the contract itself, where it is
its own owner, or through an authorizer on the owner's account in a chain the owner signed
(`Arrives.as_owner`).  Where neither makes a configuring call, what the delegate causes
leaves the configuration as it was (`delegate_configures_nothing`).  Where the contract is its
own owner, a step that calls the contract itself configures it
(`delegate_enrolls_session_key`).
-/

namespace SmartAccount

open Foundation

/-! ## Configuration -/

/-- What the owner settled when creating a trigger. -/
def BalanceTrigger.terms (trigger : BalanceTrigger) : String × Nat × Nat :=
  (trigger.sequenceId, trigger.minBalanceYocto, trigger.maxRuns)

/-- Nothing configured differs, and no grant is new. -/
structure SameConfiguration (c c' : Contract) : Prop where
  ownerId : c'.ownerId = c.ownerId
  authorizedExecutor : c'.authorizedExecutor = c.authorizedExecutor
  authorizerId : c'.authorizerId = c.authorizerId
  sequenceTemplates : c'.sequenceTemplates = c.sequenceTemplates
  balanceTriggers : ∀ triggerId,
    (c'.balanceTriggers.get triggerId).map BalanceTrigger.terms =
      (c.balanceTriggers.get triggerId).map BalanceTrigger.terms
  sessionGrants : ∀ pk, c'.sessionGrants.get pk ≠ none → c.sessionGrants.get pk ≠ none
  proxyGrants : ∀ pk, c'.proxyGrants.get pk ≠ none → c.proxyGrants.get pk ≠ none

theorem SameConfiguration.refl (c : Contract) : SameConfiguration c c :=
  ⟨rfl, rfl, rfl, rfl, fun _ => rfl, fun _ present => present, fun _ present => present⟩

/-- Undisturbed settings leave only the triggers to be looked at. -/
theorem SameConfiguration.of_undisturbed {m m' : Machine} (undisturbed : Undisturbed m m')
    (balanceTriggers : ∀ triggerId,
      (m'.contract.balanceTriggers.get triggerId).map BalanceTrigger.terms =
        (m.contract.balanceTriggers.get triggerId).map BalanceTrigger.terms) :
    SameConfiguration m.contract m'.contract where
  ownerId := undisturbed.ownerId
  authorizedExecutor := undisturbed.authorizedExecutor
  authorizerId := undisturbed.authorizerId
  sequenceTemplates := undisturbed.sequenceTemplates
  balanceTriggers := balanceTriggers
  sessionGrants := fun _ present => undisturbed.sessionGrants ▸ present
  proxyGrants := fun _ present => undisturbed.proxyGrants ▸ present

theorem SameConfiguration.of_sequencing {m m' : Machine} (sequencing : Sequencing m m') :
    SameConfiguration m.contract m'.contract :=
  .of_undisturbed sequencing.toUndisturbed fun triggerId =>
    congrArg (fun triggers => (triggers triggerId).map BalanceTrigger.terms)
      (congrArg Books.triggers sequencing.books)

/-- A run that starts keeps the terms of its trigger. -/
theorem terms_start {env : Env} {c c' : Contract} {triggerId : String} {trigger : BalanceTrigger}
    (stored : c.balanceTriggers.get triggerId = some trigger)
    (books : c'.books = c.books.start env triggerId trigger) (other : String) :
    (c'.balanceTriggers.get other).map BalanceTrigger.terms =
      (c.balanceTriggers.get other).map BalanceTrigger.terms := by
  have booked : c'.balanceTriggers.get other = _ :=
    congrFun (congrArg Books.triggers books) other
  rw [booked]
  simp only [Books.start, Function.update_apply]
  by_cases same : other = triggerId
  · subst same
    rw [if_pos rfl, stored]
    rfl
  · rw [if_neg same]
    rfl

section Grants

variable {V : Type} {grants : IterableMap String V} {key pk : String}

/-- A grant written under a key that had one is no new grant. -/
theorem granted_of_insert {old new : V} (stored : grants.get key = some old)
    (present : (grants.insert key new).get pk ≠ none) : grants.get pk ≠ none := by
  by_cases same : pk = key
  · rw [same, stored]
    exact Option.some_ne_none old
  · rwa [IterableMap.get_insert_of_ne _ _ same] at present

theorem granted_of_remove (present : (grants.remove key).get pk ≠ none) :
    grants.get pk ≠ none := by
  obtain ⟨v, left⟩ := Option.ne_none_iff_exists'.mp present
  rw [(IterableMap.get_remove_eq_some left).2]
  exact Option.some_ne_none v

theorem granted_of_removeAll {keys : List String}
    (present : (grants.removeAll keys).get pk ≠ none) : grants.get pk ≠ none := by
  rw [IterableMap.get_removeAll] at present
  split at present
  · exact absurd rfl present
  · exact present

end Grants

/-- The methods that configure; each checks for the owner. -/
def PublicCall.configures : PublicCall → Bool
  | setAuthorizer _ => true
  | setAuthorizedExecutor _ => true
  | saveSequenceTemplate _ _ => true
  | deleteSequenceTemplate _ => true
  | createBalanceTrigger _ _ _ _ => true
  | deleteBalanceTrigger _ => true
  | enrollSession _ _ _ _ _ _ => true
  | enrollProxyKey _ _ _ _ _ _ _ _ _ => true
  | _ => false

namespace Machine

/-- An accepted call configures nothing, or it is a configuring call of the owner's. -/
theorem Effect.configures {env : Env} {m m' : Machine} {method : PublicCall}
    (effect : Effect env m method m') :
    SameConfiguration m.contract m'.contract ∨
      method.configures = true ∧ env.predecessor = m.contract.ownerId := by
  cases effect with
  | setAuthorizer owner => exact .inr ⟨rfl, owner⟩
  | setAuthorizedExecutor owner => exact .inr ⟨rfl, owner⟩
  | saveSequenceTemplate template owner => exact .inr ⟨rfl, owner⟩
  | deleteSequenceTemplate owner => exact .inr ⟨rfl, owner⟩
  | createBalanceTrigger template owner => exact .inr ⟨rfl, owner⟩
  | deleteBalanceTrigger owner => exact .inr ⟨rfl, owner⟩
  | enrollSession attached owner => exact .inr ⟨rfl, owner⟩
  | enrollProxyKey attached owner => exact .inr ⟨rfl, owner⟩
  | executeSteps executor sequencing => exact .inl (.of_sequencing sequencing)
  | registerStep sequencing => exact .inl (.of_sequencing sequencing)
  | runSequence executor sequencing => exact .inl (.of_sequencing sequencing)
  | executeTrigger authorized stored undisturbed books =>
      refine .inl ?_
      have triggers := terms_start stored books
      cases authorized with
      | executor absent executor => exact .of_undisturbed undisturbed triggers
      | session known inTime left allowed =>
          refine ⟨undisturbed.ownerId, undisturbed.authorizedExecutor, undisturbed.authorizerId,
            undisturbed.sequenceTemplates, triggers, fun pk present => ?_,
            fun pk present => undisturbed.proxyGrants ▸ present⟩
          rw [undisturbed.sessionGrants] at present
          exact granted_of_insert known present
  | pruneFinishedAutomationRuns =>
      rw [(pruneFinishedAutomationRuns_eq m).2.1]
      exact .inl ⟨rfl, rfl, rfl, rfl, fun _ => rfl, fun _ => id, fun _ => id⟩
  | revokeSession owner stored known =>
      exact .inl ⟨rfl, rfl, rfl, rfl, fun _ => rfl, fun _ => granted_of_remove, fun _ => id⟩
  | revokeExpiredSessions =>
      rw [(revokeExpiredSessions_eq env m).2.1]
      exact .inl ⟨rfl, rfl, rfl, rfl, fun _ => rfl, fun _ => granted_of_removeAll, fun _ => id⟩
  | proxyCall stored inTime left aimed permitted =>
      exact .inl ⟨rfl, rfl, rfl, rfl, fun _ => rfl, fun _ => id, fun _ => granted_of_insert stored⟩
  | revokeProxyKey owner stored known =>
      exact .inl ⟨rfl, rfl, rfl, rfl, fun _ => rfl, fun _ => id, fun _ => granted_of_remove⟩
  | revokeExpiredProxyKeys =>
      rw [(revokeExpiredProxyKeys_eq env m).2.1]
      exact .inl ⟨rfl, rfl, rfl, rfl, fun _ => rfl, fun _ => id, fun _ => granted_of_removeAll⟩

/-- Nobody but the owner configures, and a delivery or a timeout does not. -/
theorem step_configures (m : Machine) (op : Op) :
    SameConfiguration m.contract (m.step op).contract ∨
      ∃ env method, op = .transact env method ∧ method.configures = true ∧
        env.predecessor = m.contract.ownerId := by
  cases op with
  | timeout id =>
      refine .inl (.of_undisturbed (.timeout m id) fun triggerId => ?_)
      simp only [step, timeout]
      split <;> rfl
  | abort id answer =>
      refine .inl (.of_undisturbed (.abort m id answer) fun triggerId => ?_)
      simp only [step, abort_contract]
  | deliver env id answer =>
      exact .inl (.of_undisturbed (.deliver env m id answer)
        (m.deliver_triggers (fun _ _ _ => rfl) env id answer))
  | transact env method =>
      cases called : m.call env method with
      | error message =>
          rw [step_refused called]
          exact .inl (.refl m.contract)
      | ok m' =>
          rw [step_transact called]
          rcases (Effect.of_call called).configures with same | ⟨configures, owner⟩
          · exact .inl same
          · exact .inr ⟨env, method, rfl, configures, owner⟩

/-- The owner and the host are settled at deployment. -/
theorem step_owner (m : Machine) (op : Op) :
    (m.step op).contract.ownerId = m.contract.ownerId ∧ (m.step op).host = m.host := by
  cases op with
  | timeout id => exact ⟨(Undisturbed.timeout m id).ownerId, (Undisturbed.timeout m id).host⟩
  | abort id answer =>
      exact ⟨(Undisturbed.abort m id answer).ownerId, (Undisturbed.abort m id answer).host⟩
  | deliver env id answer =>
      exact ⟨(Undisturbed.deliver env m id answer).ownerId,
        (Undisturbed.deliver env m id answer).host⟩
  | transact env method =>
      cases called : m.call env method with
      | error message =>
          rw [step_refused called]
          exact ⟨rfl, rfl⟩
      | ok m' =>
          rw [step_transact called]
          have effect := Effect.of_call called
          cases effect with
          | executeSteps executor sequencing => exact ⟨sequencing.ownerId, sequencing.host⟩
          | registerStep sequencing => exact ⟨sequencing.ownerId, sequencing.host⟩
          | runSequence executor sequencing => exact ⟨sequencing.ownerId, sequencing.host⟩
          | executeTrigger authorized stored undisturbed =>
              cases authorized <;> exact ⟨undisturbed.ownerId, undisturbed.host⟩
          | pruneFinishedAutomationRuns =>
              obtain ⟨host, contract, -⟩ := pruneFinishedAutomationRuns_eq m
              exact ⟨by rw [contract], host⟩
          | revokeExpiredSessions =>
              obtain ⟨host, contract, -⟩ := revokeExpiredSessions_eq env m
              exact ⟨by rw [contract], host⟩
          | revokeExpiredProxyKeys =>
              obtain ⟨host, contract, -⟩ := revokeExpiredProxyKeys_eq env m
              exact ⟨by rw [contract], host⟩
          | _ => exact ⟨rfl, rfl⟩

end Machine

/-! ## What a transaction may cause -/

/-- The calls a transaction of account `e` may cause, each with its signer and its
predecessor.  A step that another registered and `e` releases keeps that other's signer.
The owner's account runs the authorizer, if it runs a contract at all. -/
inductive Arrives (m : Machine) (e : AccountId) : AccountId → AccountId → FunctionCall → Prop
  /-- `e` itself may call anything. -/
  | sent (fc : FunctionCall) : Arrives m e e e fc
  /-- The contract calls targets, adapters, gates and assertions. -/
  | called {ns : String} {flight : Nat} {fc : FunctionCall} (signer : AccountId)
      (made : .called ns flight fc ∈ m.trace) :
      Arrives m e signer m.host.currentAccountId fc
  /-- Its proxy keys and key receipts make it call, too. -/
  | receipt {receipt : Receipt} {fc : FunctionCall} (sent : receipt ∈ m.receipts)
      (call : receipt.action = .functionCall fc) :
      Arrives m e receipt.signerId m.host.currentAccountId fc
  /-- An authorizer on the receiver's account carries out a dispatch, whatever bytes asked
  for it. -/
  | hop {signer predecessor : AccountId} {fc inner : FunctionCall} {a a' : Authorizer}
      {method : AuthorizerCall} (arrived : Arrives m e signer predecessor fc)
      (accepted : a.call ⟨fc.receiverId, signer, predecessor, fc.depositYocto, fc.gasTgas⟩ method =
        .ok (a', some (.functionCall inner))) :
      Arrives m e signer fc.receiverId inner
  /-- Any other contract calls what it likes in its own name. -/
  | foreign {signer predecessor : AccountId} {fc : FunctionCall}
      (arrived : Arrives m e signer predecessor fc)
      (elsewhere : fc.receiverId ≠ m.host.currentAccountId)
      (notOwner : fc.receiverId ≠ m.contract.ownerId) (fc' : FunctionCall) :
      Arrives m e signer fc.receiverId fc'

/-- What arrives in the owner's name comes from the contract itself or in a chain the owner
signed. -/
theorem Arrives.as_owner {m : Machine} {e signer predecessor : AccountId} {fc : FunctionCall}
    (arrives : Arrives m e signer predecessor fc) (notOwner : e ≠ m.contract.ownerId)
    (owner : predecessor = m.contract.ownerId) :
    predecessor = m.host.currentAccountId ∨ signer = m.contract.ownerId := by
  cases arrives with
  | sent fc => exact absurd owner notOwner
  | called signer made => exact .inl rfl
  | receipt sent call => exact .inl rfl
  | hop arrived accepted =>
      obtain ⟨signed, -⟩ := Authorizer.call_acts accepted
      exact .inr (Eq.trans signed owner)
  | foreign arrived elsewhere other => exact absurd owner other

/-- An operation that a transaction of account `e` may cause: a callback, a timeout, or a
call that arrives at the contract and names one of its public methods.  A private method that
is called by name finds no promise result, and panics or returns without a write. -/
inductive Consequence (decode : String → CallArgs → Option PublicCall) (e : AccountId)
    (m : Machine) : Op → Prop
  | timeout (id : Nat) : Consequence decode e m (.timeout id)
  | deliver (env : Env) (id : Nat) (answer : PromiseResult) :
      Consequence decode e m (.deliver env id answer)
  | transact {env : Env} {method : PublicCall} {fc : FunctionCall}
      (arrives : Arrives m e env.signerId env.predecessor fc)
      (here : fc.receiverId = m.host.currentAccountId)
      (decoded : decode fc.methodName fc.args = some method)
      (deposit : env.attachedDeposit = fc.depositYocto) :
      Consequence decode e m (.transact env method)

/-- No configuring call comes from the contract while it is its own owner, or in the owner's
name in a chain the owner signed. -/
def Op.KeepsApart (m : Machine) : Op → Prop
  | .transact env method =>
      method.configures = true →
        (env.predecessor = m.host.currentAccountId →
          m.host.currentAccountId ≠ m.contract.ownerId) ∧
        (env.signerId = m.contract.ownerId → env.predecessor ≠ m.contract.ownerId)
  | _ => True

/-- The contract of another owner, in a chain that owner did not sign. -/
theorem Op.KeepsApart.of_foreign_owner {m : Machine} {env : Env} {method : PublicCall}
    (apart : m.host.currentAccountId ≠ m.contract.ownerId)
    (unsigned : env.signerId ≠ m.contract.ownerId) : (Op.transact env method).KeepsApart m :=
  fun _ => ⟨fun _ => apart, fun signed => absurd signed unsigned⟩

namespace Machine

/-- One operation that a delegate causes configures nothing. -/
theorem step_caused {decode : String → CallArgs → Option PublicCall} {e : AccountId} {m : Machine}
    {op : Op} (notOwner : e ≠ m.contract.ownerId) (caused : Consequence decode e m op)
    (apart : op.KeepsApart m) : SameConfiguration m.contract (m.step op).contract := by
  rcases step_configures m op with same | ⟨env, method, rfl, configures, owner⟩
  · exact same
  · cases caused with
    | transact arrives here decoded deposit =>
        obtain ⟨foreign, unsigned⟩ := apart configures
        rcases arrives.as_owner notOwner owner with self | signed
        · exact absurd (self.symm.trans owner) (foreign self)
        · exact absurd owner (unsigned signed)

end Machine

/-! ## Histories -/

/-- An operation of a history: something the delegate causes, or anything else. -/
inductive Turn where
  | caused (op : Op)
  | other (op : Op)

namespace Machine

/-- A history in which the operations marked as caused by `e` are, and keep apart. -/
def CausedApart (decode : String → CallArgs → Option PublicCall) (e : AccountId) :
    Machine → List Turn → Prop
  | _, [] => True
  | m, .caused op :: turns =>
      (Consequence decode e m op ∧ op.KeepsApart m) ∧ CausedApart decode e (m.step op) turns
  | m, .other op :: turns => CausedApart decode e (m.step op) turns

/-- None of the caused operations configures anything. -/
def CausedConfigureNothing : Machine → List Turn → Prop
  | _, [] => True
  | m, .caused op :: turns =>
      SameConfiguration m.contract (m.step op).contract ∧
        CausedConfigureNothing (m.step op) turns
  | m, .other op :: turns => CausedConfigureNothing (m.step op) turns

theorem caused_run {decode : String → CallArgs → Option PublicCall} {e : AccountId} {m : Machine}
    {turns : List Turn} (notOwner : e ≠ m.contract.ownerId)
    (apart : m.CausedApart decode e turns) : m.CausedConfigureNothing turns := by
  induction turns generalizing m with
  | nil => trivial
  | cons turn turns ih =>
      have later : ∀ op, e ≠ (m.step op).contract.ownerId := fun op same =>
        notOwner (same.trans (m.step_owner op).1)
      cases turn with
      | caused op =>
          obtain ⟨⟨caused, keeps⟩, rest⟩ := apart
          exact ⟨step_caused notOwner caused keeps, ih (later op) rest⟩
      | other op => exact ih (later op) apart

end Machine

/-- In every history of every deployment, an account that is not the owner, delegate or not,
configures nothing by its transactions and what they cause, so long as what they cause keeps
apart from the owner's name. -/
theorem delegate_configures_nothing (decode : String → CallArgs → Option PublicCall) (host : Host)
    (ownerId : AccountId) (authorizerId : Option AccountId) {e : AccountId}
    (notOwner : e ≠ ownerId) (turns : List Turn)
    (apart : (Machine.init host ownerId authorizerId).CausedApart decode e turns) :
    (Machine.init host ownerId authorizerId).CausedConfigureNothing turns :=
  Machine.caused_run notOwner apart

/-! ## A plan that calls the contract itself -/

def bob : AccountId := ⟨"bob.near", by decide +kernel⟩

/-- Bob's own transactions. -/
def bobEnv : Env := ⟨bob, bob, "ed25519:bob", 0, 0, 1000, 0⟩

/-- A call the contract makes at the account in a chain signed by Bob. -/
def selfEnv (account : AccountId) : Env := ⟨account, bob, "ed25519:bob", 0, 1, 1000, 0⟩

/-- The step that enrols a session key of Bob's. -/
def enrolStep (account : AccountId) : Step :=
  { plainStep "enrol" with
    targetId := account
    methodName := "enroll_session"
    attachedDepositYocto := 1 }

def bobEnrolment : PublicCall := .enrollSession "ed25519:bob" 1000 none 5 7 none

/-- Bob's transaction: a plan whose only step calls the contract itself. -/
def bobPlan (account : AccountId) : Op := .transact bobEnv (.executeSteps [enrolStep account])

/-- How the calls of Bob's transaction are read. -/
def decodePlan (account : AccountId) (methodName : String) : CallArgs → Option PublicCall
  | .raw _ =>
      if methodName = "execute_steps" then some (.executeSteps [enrolStep account])
      else if methodName = "enroll_session" then some bobEnrolment
      else none
  | _ => none

/-- Alice makes Bob her delegate; Bob submits his plan, and its step is resumed. -/
def delegated (account : AccountId) : List Op :=
  [.transact aliceEnv (.setAuthorizedExecutor (some bob)), bobPlan account,
    .deliver (selfEnv account) 0 okResult]

/-- The call that the step has made then. -/
def enrolCall (account : AccountId) : FunctionCall := ⟨account, "enroll_session", .raw [], 1, 10⟩

/-- The market's account as the contract's, owned by Alice. -/
def marketHost : Host := ⟨market, some⟩

/-- On the market's account the contract calls itself in vain. -/
theorem delegate_configures_nothing_other_owner :
    (Machine.init marketHost alice none).CausedConfigureNothing
      [.other (.transact aliceEnv (.setAuthorizedExecutor (some bob))), .caused (bobPlan market),
        .caused (.deliver (selfEnv market) 0 okResult),
        .caused (.transact (selfEnv market) bobEnrolment)] := by
  have planned : Arrives ((Machine.init marketHost alice none).run (delegated market))
      bob bob market (enrolCall market) :=
    @Arrives.called _ _ "manual:bob.near" 0 _ bob (by decide)
  refine delegate_configures_nothing (decodePlan market) marketHost alice none
    (show bob ≠ alice by decide) _ ⟨⟨?_, ?_⟩, ⟨.deliver _ _ _, trivial⟩, ⟨?_, ?_⟩, trivial⟩
  · exact .transact (.sent ⟨market, "execute_steps", .raw [], 0, 300⟩) rfl rfl rfl
  · exact fun configures => by cases configures
  · exact .transact planned rfl rfl rfl
  · exact .of_foreign_owner (by decide) (by decide)

/-- On Alice's own account the delegate's step enrols a session key for the delegate. -/
theorem delegate_enrolls_session_key :
    let m := deployed.run (delegated alice)
    let m' := m.step (.transact (selfEnv alice) bobEnrolment)
    bob ≠ m.contract.ownerId ∧ m.contract.authorizedExecutor = some bob ∧
    Consequence (decodePlan alice) bob m (.transact (selfEnv alice) bobEnrolment) ∧
    m.contract.sessionGrants.get "ed25519:bob" = none ∧
    m'.contract.sessionGrants.get "ed25519:bob" ≠ none ∧
    ¬ SameConfiguration m.contract m'.contract := by
  intro m m'
  have planned : Arrives m bob bob alice (enrolCall alice) :=
    @Arrives.called _ _ "manual:bob.near" 0 _ bob (by decide)
  have absent : m.contract.sessionGrants.get "ed25519:bob" = none := by decide
  have present : m'.contract.sessionGrants.get "ed25519:bob" ≠ none := by decide
  exact ⟨by decide, by decide, .transact planned rfl rfl rfl, absent, present,
    fun same => same.sessionGrants _ present absent⟩

end SmartAccount
