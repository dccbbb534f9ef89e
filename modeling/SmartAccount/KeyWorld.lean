import SmartAccount.KeyRing
import SmartAccount.Methods
import SmartAccount.Foundation.Turns
import Mathlib.Logic.Function.Basic

/-!
# Grants and access keys

The contract writes a grant and sends a receipt for the access key behind it; nobody looks
at what becomes of the receipt.  In standalone mode the receipt adds or deletes a key of the
contract's own account.  In extension mode it first has to be taken by the authorizer of
another account.

`KeyWorld` is the contract with the key rings of all accounts and the calls on their way to
an authorizer.  `Tended` says that grants and keys will be in step once what is under way has
settled; the keys there will be are the `forecast`.
-/

namespace SmartAccount

open Foundation

/-! ## What key actions make of a public key -/

/-- The public key an action is about. -/
def Action.publicKey : Action → Option PublicKey
  | .functionCall _ => none
  | .addKey publicKey _ _ _ => some publicKey
  | .deleteKey publicKey => some publicKey

/-- The permission a public key is left with: a key that is there is not added again. -/
def Action.replay (pk : PublicKey) (permission : Option Permission) :
    Action → Option Permission
  | .functionCall _ => permission
  | .addKey publicKey allowanceYocto receiverId methodName =>
      if publicKey = pk then
        permission.or
          ((splitMethodNames methodName).map (.functionCall allowanceYocto receiverId))
      else permission
  | .deleteKey publicKey => if publicKey = pk then none else permission

theorem Action.replay_elsewhere {pk : PublicKey} {action : Action}
    (other : action.publicKey ≠ some pk) (permission : Option Permission) :
    action.replay pk permission = permission := by
  cases action with
  | functionCall fc => rfl
  | addKey publicKey allowanceYocto receiverId methodName =>
      exact if_neg fun same => other (congrArg some same)
  | deleteKey publicKey => exact if_neg fun same => other (congrArg some same)

/-- The host's account of an action is the replay, also where the action fails. -/
theorem AccessKeys.get_apply (keys : AccessKeys) (action : Action) (pk : PublicKey) :
    ((keys.apply action).getD keys).get pk = action.replay pk (keys.get pk) := by
  cases action with
  | functionCall fc => rfl
  | addKey publicKey allowanceYocto receiverId methodName =>
      simp only [AccessKeys.apply, Action.replay]
      by_cases same : publicKey = pk
      · subst same
        rw [if_pos rfl]
        cases present : keys.get publicKey with
        | some permission => exact present
        | none =>
            cases splitMethodNames methodName with
            | none => exact present
            | some methodNames => exact IterableMap.get_insert_self ..
      · rw [if_neg same]
        cases keys.get publicKey with
        | some permission => rfl
        | none =>
            cases splitMethodNames methodName with
            | none => rfl
            | some methodNames => exact IterableMap.get_insert_of_ne _ _ fun eq => same eq.symm
  | deleteKey publicKey =>
      simp only [AccessKeys.apply, Action.replay]
      by_cases same : publicKey = pk
      · subst same
        rw [if_pos rfl]
        cases present : keys.get publicKey with
        | some permission => exact IterableMap.get_remove_self ..
        | none => exact present
      · rw [if_neg same]
        cases keys.get publicKey with
        | some permission => exact IterableMap.get_remove_of_ne _ fun eq => same eq.symm
        | none => rfl

namespace KeyRing

/-- What an action did to the keys, nothing where it failed. -/
def happened (extension : AccountId) (keys : AccessKeys) (action : Action) : List KeyEvent :=
  match keys.apply action with
  | none => []
  | some after => keyEvents extension keys after action

theorem settle_eq {r : KeyRing} {n : Nat} {extension : AccountId} {action : Action}
    (sent : r.pending[n]? = some (extension, action)) :
    r.settle n true = { r with
      pending := r.pending.eraseIdx n
      keys := (r.keys.apply action).getD r.keys
      log := r.log ++ happened extension r.keys action } := by
  unfold settle happened
  simp only [sent, if_true]
  cases r.keys.apply action with
  | none =>
      dsimp only [Option.getD_none]
      rw [List.append_nil]
  | some after => rfl

theorem settle_of_none {r : KeyRing} {n : Nat} (nothing : r.pending[n]? = none)
    (funded : Bool) : r.settle n funded = r := by
  unfold settle
  rw [nothing]

theorem lastAbout_happened {pk : PublicKey} {action : Action}
    (other : action.publicKey ≠ some pk) (extension : AccountId) (keys : AccessKeys)
    (log : List KeyEvent) :
    lastAbout pk (log ++ happened extension keys action) = lastAbout pk log := by
  have snoc : ∀ (permissions : Option Permission) (event : Permission → KeyEvent),
      (∀ permission, some (event permission).publicKey = action.publicKey) →
      lastAbout pk (log ++ permissions.toList.map event) = lastAbout pk log := by
    intro permissions event about
    cases permissions with
    | none => rw [Option.toList_none, List.map_nil, List.append_nil]
    | some permission =>
        refine lastAbout_snoc_of_ne (fun same => other ?_) log
        rw [same]
        exact (about permission).symm
  unfold happened
  split
  · rw [List.append_nil]
  · cases action with
    | functionCall fc => exact congrArg (lastAbout pk) (List.append_nil log)
    | addKey publicKey allowanceYocto receiverId methodName =>
        exact snoc _ _ fun permission => rfl
    | deleteKey publicKey => exact snoc _ _ fun permission => rfl

/-- A key of the account's own was never touched; any other was last added for the
extension. -/
def Logged (extension : AccountId) (original keys : AccessKeys) (log : List KeyEvent)
    (pk : PublicKey) : Prop :=
  (original.get pk ≠ none → lastAbout pk log = none) ∧
  (original.get pk = none → ∀ permission, keys.get pk = some permission →
    lastAbout pk log = some (.added extension pk permission))

/-- Actions on public keys that the account did not have keep the log true. -/
theorem Logged.settle {extension : AccountId} {original keys : AccessKeys}
    {log : List KeyEvent} {action : Action}
    (foreign : ∀ pk ∈ action.publicKey, original.get pk = none) {pk : PublicKey}
    (logged : Logged extension original keys log pk) :
    Logged extension original ((keys.apply action).getD keys)
      (log ++ happened extension keys action) pk := by
  by_cases about : action.publicKey = some pk
  · refine ⟨fun own => absurd (foreign pk about) own, fun unowned permission present => ?_⟩
    have before := logged.2 unowned
    cases action with
    | functionCall fc => cases about
    | deleteKey publicKey =>
        cases about
        rw [AccessKeys.get_apply, Action.replay, if_pos rfl] at present
        cases present
    | addKey publicKey allowanceYocto receiverId methodName =>
        cases about
        cases there : keys.get pk with
        | some permission' =>
            simp only [happened, AccessKeys.apply, there, Option.getD_none, List.append_nil,
              Option.some.injEq] at present ⊢
            exact before permission (present ▸ there)
        | none =>
            cases split : splitMethodNames methodName with
            | none =>
                simp only [AccessKeys.apply, there, split, Option.map_none, Option.getD_none,
                  reduceCtorEq] at present
            | some methodNames =>
                simp only [happened, AccessKeys.apply, there, split, Option.map_some,
                  Option.getD_some, keyEvents, IterableMap.get_insert_self, Option.toList_some,
                  List.map_cons, List.map_nil, Option.some.injEq] at present ⊢
                rw [lastAbout_snoc, ← present]
                exact if_pos rfl
  · rw [Logged, AccessKeys.get_apply, Action.replay_elsewhere about,
      lastAbout_happened about]
    exact logged

/-- A function call to the account, carried out by its authorizer. -/
def receive (r : KeyRing) (signer predecessor : AccountId) (fc : FunctionCall) : KeyRing :=
  match AuthorizerCall.decode fc.methodName fc.args with
  | none => r
  | some method => r.call signer predecessor fc.depositYocto fc.gasTgas method

end KeyRing

/-! ## What the authorizer makes of a call -/

/-- The action an authorizer answers a function call with, if it takes the call. -/
def Authorizer.answer (a : Authorizer) (account signer predecessor : AccountId)
    (fc : FunctionCall) : Option Action :=
  match AuthorizerCall.decode fc.methodName fc.args with
  | none => none
  | some method =>
      match a.call ⟨account, signer, predecessor, fc.depositYocto, fc.gasTgas⟩ method with
      | .ok (_, some action) => if KeyRing.creatable action then some action else none
      | _ => none

/-- The envelopes leave the authorizer's state alone, and an accepted one is answered. -/
theorem Authorizer.call_decoded {a a' : Authorizer} {env : AuthorizerEnv} {methodName : String}
    {args : CallArgs} {method : AuthorizerCall} {action : Option Action}
    (decoded : AuthorizerCall.decode methodName args = some method)
    (accepted : a.call env method = .ok (a', action)) : a' = a ∧ action ≠ none := by
  have performed := Authorizer.call_performs accepted
  cases args with
  | raw bytes => cases decoded
  | adapterCall call => cases decoded
  | dispatch targetId method' args gasTgas =>
      obtain ⟨-, same⟩ := Option.ite_none_right_eq_some.mp decoded
      cases same
      cases performed
      exact ⟨rfl, Option.some_ne_none _⟩
  | addSessionKey publicKey allowanceYocto receiverId method' =>
      obtain ⟨-, same⟩ := Option.ite_none_right_eq_some.mp decoded
      cases same
      cases performed
      exact ⟨rfl, Option.some_ne_none _⟩
  | deleteSessionKey publicKey =>
      obtain ⟨-, same⟩ := Option.ite_none_right_eq_some.mp decoded
      cases same
      cases performed
      exact ⟨rfl, Option.some_ne_none _⟩

/-- An accepted request for a key is answered as it was made. -/
theorem Authorizer.call_addSessionKey {a a' : Authorizer} {env : AuthorizerEnv}
    {publicKey : PublicKey} {allowanceYocto : Nat} {receiverId : AccountId} {methodName : String}
    {action : Action}
    (accepted : a.call env (.addSessionKey publicKey allowanceYocto receiverId methodName) =
      .ok (a', some action)) :
    action = .addKey publicKey allowanceYocto receiverId methodName := by
  cases Authorizer.call_performs accepted
  rfl

/-- What the ring is left with is the answer, waiting to settle. -/
theorem KeyRing.receive_eq (r : KeyRing) (signer predecessor : AccountId) (fc : FunctionCall) :
    r.receive signer predecessor fc = { r with
      pending := r.pending ++
        (r.authorizer.answer r.account signer predecessor fc).toList.map (predecessor, ·) } := by
  unfold receive Authorizer.answer
  cases decoded : AuthorizerCall.decode fc.methodName fc.args with
  | none =>
      dsimp only
      rw [Option.toList_none, List.map_nil, List.append_nil]
  | some method =>
      dsimp only [KeyRing.call]
      cases accepted : r.authorizer.call
          ⟨r.account, signer, predecessor, fc.depositYocto, fc.gasTgas⟩ method with
      | error message =>
          dsimp only
          rw [Option.toList_none, List.map_nil, List.append_nil]
      | ok answered =>
          obtain ⟨authorizer, action⟩ := answered
          obtain ⟨rfl, answer⟩ := Authorizer.call_decoded decoded accepted
          cases action with
          | none => exact absurd rfl answer
          | some action =>
              dsimp only
              split
              · rfl
              · rw [Option.toList_none, List.map_nil, List.append_nil]

/-- The key action a receipt of the contract leads to: its own, or the one that the
authorizer it calls answers with.  This contract has none of the authorizer's methods. -/
def Receipt.requested (authorizers : AccountId → Authorizer) (self : AccountId)
    (receipt : Receipt) : Option Action :=
  match receipt.action with
  | .functionCall fc =>
      if receipt.receiverId = self then none
      else (authorizers receipt.receiverId).answer receipt.receiverId receipt.signerId self fc
  | action => some action

/-- The account and the public key that a receipt changes something about. -/
def Receipt.target (authorizers : AccountId → Authorizer) (self : AccountId)
    (receipt : Receipt) : Option (AccountId × PublicKey) :=
  ((receipt.requested authorizers self).bind Action.publicKey).map (receipt.receiverId, ·)

/-- What a receipt makes of a public key of an account. -/
def Receipt.replay (authorizers : AccountId → Authorizer) (self account : AccountId)
    (pk : PublicKey) (permission : Option Permission) (receipt : Receipt) : Option Permission :=
  if receipt.receiverId = account then
    match receipt.requested authorizers self with
    | some action => action.replay pk permission
    | none => permission
  else permission

theorem Receipt.replay_elsewhere {authorizers : AccountId → Authorizer} {self account : AccountId}
    {pk : PublicKey} (permission : Option Permission) (receipt : Receipt)
    (other : receipt.target authorizers self ≠ some (account, pk)) :
    receipt.replay authorizers self account pk permission = permission := by
  unfold Receipt.replay
  split
  · rename_i here
    split
    · rename_i action requested
      refine Action.replay_elsewhere (fun about => other ?_) permission
      rw [Receipt.target, requested, Option.bind_some, about, Option.map_some, here]
    · rfl
  · rfl

/-! ## The world of keys -/

/-- The methods that write grants and send key receipts, and the one that says where to. -/
def PublicCall.managesKeys : PublicCall → Bool
  | .setAuthorizer _ => true
  | .enrollSession _ _ _ _ _ _ => true
  | .revokeSession _ => true
  | .revokeExpiredSessions => true
  | .enrollProxyKey _ _ _ _ _ _ _ _ _ => true
  | .revokeProxyKey _ => true
  | .revokeExpiredProxyKeys => true
  | _ => false

structure KeyWorld where
  machine : Machine
  /-- Each account's keys and the authorizer deployed there; an account without one is an
  account whose authorizer has nobody armed. -/
  rings : AccountId → KeyRing
  /-- The calls on their way to an authorizer. -/
  hops : List Receipt

inductive KeyOp where
  | call (env : Env) (method : {method : PublicCall // method.managesKeys = true})
  /-- A call reaches the account it was sent to. -/
  | hop (n : Nat)
  /-- A key action of an account settles; it may fail for a reason of the host's own. -/
  | settle (account : AccountId) (n : Nat) (funded : Bool)

namespace KeyWorld

/-- The contract as it is deployed, among accounts with these authorizers and keys. -/
def start (host : Host) (ownerId : AccountId) (authorizerId : Option AccountId)
    (authorizers : AccountId → Authorizer) (original : AccountId → AccessKeys) : KeyWorld where
  machine := Machine.init host ownerId authorizerId
  rings account := KeyRing.start account (authorizers account) (original account)
  hops := []

/-- `env::current_account_id`. -/
def self (w : KeyWorld) : AccountId := w.machine.host.currentAccountId

/-- The account that holds the keys. -/
def holder (w : KeyWorld) : AccountId := w.machine.contract.authorizerId.getD w.self

def authorizers (w : KeyWorld) : AccountId → Authorizer := fun account =>
  (w.rings account).authorizer

def withRing (w : KeyWorld) (account : AccountId) (ring : KeyRing) : KeyWorld :=
  { w with rings := Function.update w.rings account ring }

/-- Actions wait on an account until they settle. -/
def withPending (w : KeyWorld) (account : AccountId) (actions : List Action) : KeyWorld :=
  w.withRing account { w.rings account with
    pending := (w.rings account).pending ++ actions.map (w.self, ·) }

/-- A receipt leaves the contract. -/
def send (w : KeyWorld) (receipt : Receipt) : KeyWorld :=
  match receipt.action with
  | .functionCall _ => { w with hops := w.hops ++ [receipt] }
  | action => w.withPending receipt.receiverId [action]

/-- A call of the contract, and the receipts it sends. -/
def call (w : KeyWorld) (env : Env) (method : PublicCall) : KeyWorld :=
  let m := w.machine.step (.transact env method)
  (m.receipts.drop w.machine.receipts.length).foldl send { w with machine := m }

def hop (w : KeyWorld) (n : Nat) : KeyWorld :=
  match w.hops[n]? with
  | none => w
  | some receipt =>
      let rest := { w with hops := w.hops.eraseIdx n }
      match receipt.action with
      | .functionCall fc =>
          if receipt.receiverId = w.self then rest
          else rest.withRing receipt.receiverId
            ((w.rings receipt.receiverId).receive receipt.signerId w.self fc)
      | _ => rest

def settle (w : KeyWorld) (account : AccountId) (n : Nat) (funded : Bool) : KeyWorld :=
  w.withRing account ((w.rings account).settle n funded)

def step (w : KeyWorld) : KeyOp → KeyWorld
  | .call env method => w.call env method.val
  | .hop n => w.hop n
  | .settle account n funded => w.settle account n funded

def run (w : KeyWorld) (ops : List KeyOp) : KeyWorld := ops.foldl step w

/-- Every receipt has settled: no call is on its way to an authorizer, and no action waits on
an account. -/
def Settled (w : KeyWorld) : Prop :=
  w.hops = [] ∧ ∀ account, (w.rings account).pending = []

/-- A key for one method of the contract is there, and the contract had it added. -/
def HoldsKey (w : KeyWorld) (methodName : String) (pk : PublicKey) : Prop :=
  ∃ allowanceYocto,
    (w.rings w.holder).keys.get pk =
      some (.functionCall allowanceYocto w.self [utf8Bytes methodName]) ∧
    KeyRing.lastAbout pk (w.rings w.holder).log =
      some (.added w.self pk (.functionCall allowanceYocto w.self [utf8Bytes methodName]))

/-- The keys of the contract's and the grants are the same. -/
def InStep (w : KeyWorld) : Prop :=
  ∀ pk, (w.HoldsKey "execute_trigger" pk ↔ w.machine.contract.sessionGrants.get pk ≠ none) ∧
    (w.HoldsKey "proxy_call" pk ↔ w.machine.contract.proxyGrants.get pk ≠ none)

/-! ## Accounts that nothing is sent to -/

/-- The accounts an operation may change something on. -/
def touches (w : KeyWorld) : KeyOp → List AccountId
  | .call env method =>
      ((w.machine.step (.transact env method.val)).receipts.drop
        w.machine.receipts.length).map Receipt.receiverId
  | .hop n => w.hops[n]?.toList.map Receipt.receiverId
  | .settle account _ _ => [account]

/-- The accounts a run may change something on. -/
def touched : KeyWorld → List KeyOp → List AccountId
  | _, [] => []
  | w, op :: ops => w.touches op ++ touched (w.step op) ops

theorem rings_withRing_of_ne {w : KeyWorld} {account other : AccountId} (ring : KeyRing)
    (distinct : other ≠ account) : (w.withRing account ring).rings other = w.rings other :=
  Function.update_of_ne distinct ..

theorem rings_send_of_ne {w : KeyWorld} {receipt : Receipt} {account : AccountId}
    (distinct : account ≠ receipt.receiverId) : (w.send receipt).rings account = w.rings account := by
  unfold send
  split
  · rfl
  · exact rings_withRing_of_ne _ distinct

theorem rings_sends_of_not_mem {w : KeyWorld} {receipts : List Receipt} {account : AccountId}
    (apart : account ∉ receipts.map Receipt.receiverId) :
    (receipts.foldl send w).rings account = w.rings account := by
  induction receipts generalizing w with
  | nil => rfl
  | cons receipt receipts ih =>
      rw [List.map_cons, List.mem_cons, not_or] at apart
      exact (ih apart.2).trans (rings_send_of_ne apart.1)

theorem rings_step_of_not_mem {w : KeyWorld} {op : KeyOp} {account : AccountId}
    (apart : account ∉ w.touches op) : (w.step op).rings account = w.rings account := by
  cases op with
  | call env method => exact rings_sends_of_not_mem apart
  | settle other n funded =>
      exact rings_withRing_of_ne _ fun same => apart (List.mem_singleton.mpr same)
  | hop n =>
      show (w.hop n).rings account = _
      unfold hop
      split
      · rfl
      · rename_i receipt found
        have distinct : account ≠ receipt.receiverId := by
          rw [touches, found] at apart
          exact fun same => apart (List.mem_singleton.mpr same)
        dsimp only
        split
        · split
          · rfl
          · exact rings_withRing_of_ne _ distinct
        · rfl

/-- The keys of an account that nothing is sent to, and what waits there, stay as they are. -/
theorem rings_run_of_not_mem {w : KeyWorld} {ops : List KeyOp} {account : AccountId}
    (apart : account ∉ w.touched ops) : (w.run ops).rings account = w.rings account := by
  induction ops generalizing w with
  | nil => rfl
  | cons op ops ih =>
      rw [touched, List.mem_append, not_or] at apart
      exact (ih apart.2).trans (rings_step_of_not_mem apart.1)

/-- Only the accounts that something was sent to need to be looked at. -/
theorem settled_of_touched {w : KeyWorld} {ops : List KeyOp} (settled : w.Settled)
    (hops : (w.run ops).hops = [])
    (pending : ∀ account ∈ w.touched ops, ((w.run ops).rings account).pending = []) :
    (w.run ops).Settled := by
  refine ⟨hops, fun account => ?_⟩
  by_cases inside : account ∈ w.touched ops
  · exact pending account inside
  · rw [rings_run_of_not_mem inside]
    exact settled.2 account

/-! ## Orderly operations -/

/-- The method that a granted public key may call. -/
def grantedMethod (c : Contract) (pk : PublicKey) : Option String :=
  if c.sessionGrants.get pk ≠ none then some "execute_trigger"
  else if c.proxyGrants.get pk ≠ none then some "proxy_call"
  else none

/-- The account that holds the keys listens: it is the contract's own, or one whose
authorizer has armed the contract, in a transaction that this account signed. -/
def Heard (w : KeyWorld) (env : Env) : Prop :=
  ∀ auth ∈ w.machine.contract.authorizerId, auth ≠ w.self ∧ env.signerId = auth ∧
    (w.authorizers auth).isExtensionArmed w.self = true

instance (w : KeyWorld) (env : Env) : Decidable (w.Heard env) :=
  inferInstanceAs (Decidable (∀ auth ∈ w.machine.contract.authorizerId, _))

/-- An enrolment of a key that is granted for this method already, or of a new one: given
in the text the host reports it by, unused on the account that holds the keys, with an
allowance, and heard. -/
def Enrols (original : AccountId → AccessKeys) (w : KeyWorld) (env : Env) (methodName : String)
    (pk : String) (allowanceYocto : Nat) : Prop :=
  grantedMethod w.machine.contract pk = some methodName ∨
    (grantedMethod w.machine.contract pk = none ∧ w.machine.host.parsePublicKey pk = some pk ∧
      (original w.holder).get pk = none ∧ 0 < allowanceYocto ∧ w.Heard env)

instance (original : AccountId → AccessKeys) (w : KeyWorld) (env : Env) (methodName : String)
    (pk : String) (allowanceYocto : Nat) :
    Decidable (Enrols original w env methodName pk allowanceYocto) :=
  inferInstanceAs (Decidable (_ ∨ _))

/-- What an accepted call needs. -/
def OrderlyCall (original : AccountId → AccessKeys) (w : KeyWorld) (env : Env) :
    PublicCall → Prop
  | .setAuthorizer authorizerId => authorizerId.getD w.self = w.holder ∨
      (w.machine.contract.sessionGrants.entries = [] ∧ w.machine.contract.proxyGrants.entries = [])
  | .enrollSession pk _ _ _ allowance _ => Enrols original w env "execute_trigger" pk allowance
  | .enrollProxyKey pk _ _ _ _ _ _ allowance _ => Enrols original w env "proxy_call" pk allowance
  | .revokeSession _ => w.Heard env
  | .revokeProxyKey _ => w.Heard env
  | .revokeExpiredSessions => Machine.expiredSessions env w.machine.contract ≠ [] → w.Heard env
  | .revokeExpiredProxyKeys => Machine.expiredProxyKeys env w.machine.contract ≠ [] → w.Heard env
  | _ => True

instance (original : AccountId → AccessKeys) (w : KeyWorld) (env : Env) :
    (method : PublicCall) → Decidable (OrderlyCall original w env method)
  | .setAuthorizer _ => inferInstanceAs (Decidable (_ ∨ _))
  | .enrollSession pk _ _ _ allowance _ =>
      inferInstanceAs (Decidable (Enrols original w env "execute_trigger" pk allowance))
  | .enrollProxyKey pk _ _ _ _ _ _ allowance _ =>
      inferInstanceAs (Decidable (Enrols original w env "proxy_call" pk allowance))
  | .revokeSession _ => inferInstanceAs (Decidable (w.Heard env))
  | .revokeProxyKey _ => inferInstanceAs (Decidable (w.Heard env))
  | .revokeExpiredSessions => inferInstanceAs (Decidable (_ → w.Heard env))
  | .revokeExpiredProxyKeys => inferInstanceAs (Decidable (_ → w.Heard env))
  | .setAuthorizedExecutor _ => .isTrue trivial
  | .executeSteps _ => .isTrue trivial
  | .registerStep _ => .isTrue trivial
  | .runSequence _ _ => .isTrue trivial
  | .saveSequenceTemplate _ _ => .isTrue trivial
  | .deleteSequenceTemplate _ => .isTrue trivial
  | .createBalanceTrigger _ _ _ _ => .isTrue trivial
  | .deleteBalanceTrigger _ => .isTrue trivial
  | .executeTrigger _ => .isTrue trivial
  | .pruneFinishedAutomationRuns => .isTrue trivial
  | .proxyCall _ _ _ => .isTrue trivial

/-- An operation that keeps grants and keys in step.  Receipts about one public key of one
account settle in the order they were sent in, and none fails for a reason of the host's. -/
def Orderly (original : AccountId → AccessKeys) (w : KeyWorld) : KeyOp → Prop
  | .call env method =>
      (w.machine.call env method.val).isOk = true → OrderlyCall original w env method.val
  | .hop n => InTurn (Receipt.target w.authorizers w.self) w.hops n
  | .settle account n funded =>
      (n < (w.rings account).pending.length → funded = true) ∧
        InTurn (fun request : AccountId × Action => request.2.publicKey)
          (w.rings account).pending n

instance (original : AccountId → AccessKeys) (w : KeyWorld) :
    (op : KeyOp) → Decidable (Orderly original w op)
  | .call _ _ => inferInstanceAs (Decidable (_ → _))
  | .hop _ => inferInstanceAs (Decidable (InTurn _ _ _))
  | .settle _ _ _ => inferInstanceAs (Decidable (_ ∧ InTurn _ _ _))

/-- A run every operation of which is orderly. -/
def OrderlyRun (original : AccountId → AccessKeys) : KeyWorld → List KeyOp → Prop
  | _, [] => True
  | w, op :: ops => Orderly original w op ∧ OrderlyRun original (w.step op) ops

instance decidableOrderlyRun (original : AccountId → AccessKeys) :
    (w : KeyWorld) → (ops : List KeyOp) → Decidable (OrderlyRun original w ops)
  | _, [] => .isTrue trivial
  | w, op :: ops =>
      have := decidableOrderlyRun original (w.step op) ops
      inferInstanceAs (Decidable (_ ∧ _))

/-! ## The keys there will be -/

/-- The permission a public key of an account will have once the receipts under way have
settled, each in its turn. -/
def forecast (w : KeyWorld) (account : AccountId) (pk : PublicKey) : Option Permission :=
  w.hops.foldl (Receipt.replay w.authorizers w.self account pk)
    ((w.rings account).pending.foldl (fun permission request => request.2.replay pk permission)
      ((w.rings account).keys.get pk))

/-- The permission that goes with a granted method. -/
def Fits (self : AccountId) (own : Option Permission) (permission : Option Permission) :
    Option String → Prop
  | some methodName => ∃ allowanceYocto,
      permission = some (.functionCall allowanceYocto self [utf8Bytes methodName])
  | none => permission = own

/-- What is under way concerns only public keys that were not the account's own, and the
logs are true. -/
structure Steady (original : AccountId → AccessKeys) (w : KeyWorld) : Prop where
  account : ∀ account, (w.rings account).account = account
  calls : ∀ receipt ∈ w.hops, ∃ fc, receipt.action = .functionCall fc
  pending : ∀ account, ∀ request ∈ (w.rings account).pending, request.1 = w.self ∧
    ∀ pk ∈ request.2.publicKey, (original account).get pk = none
  underway : ∀ receipt ∈ w.hops, ∀ target ∈ receipt.target w.authorizers w.self,
    (original target.1).get target.2 = none
  logged : ∀ account pk, KeyRing.Logged w.self (original account) (w.rings account).keys
    (w.rings account).log pk

/-- Grants and keys will be in step, once everything has settled. -/
structure Tended (original : AccountId → AccessKeys) (w : KeyWorld) : Prop
    extends Steady original w where
  canonical : ∀ pk, grantedMethod w.machine.contract pk ≠ none →
    w.machine.host.parsePublicKey pk = some pk
  unused : ∀ pk, grantedMethod w.machine.contract pk ≠ none → (original w.holder).get pk = none
  apart : ∀ pk, w.machine.contract.sessionGrants.get pk ≠ none →
    w.machine.contract.proxyGrants.get pk = none
  elsewhere : ∀ account, account ≠ w.holder → ∀ pk,
    w.forecast account pk = (original account).get pk
  fits : ∀ pk, Fits w.self ((original w.holder).get pk) (w.forecast w.holder pk)
    (grantedMethod w.machine.contract pk)

end KeyWorld

end SmartAccount
