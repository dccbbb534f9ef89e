import SmartAccount.GrantedKeys
import SmartAccount.Budgets
import SmartAccount.Delegation

/-!
# Fires by delegated keys

A key that the owner enrols calls `execute_trigger` in the name of the account it is on, and
that account is the owner's.  While its grant is stored the key is bound by it; without a
grant the call passes for one of the owner's own.  Revoking a session and dropping expired
ones remove the grant at once, and the key later, or never.

`SigningWorld` is the world of keys with everything else that may happen around it: all
methods and callbacks of the contract, other calls of the authorizers, and accounts that set
or delete keys of their own accord.  An accepted fire by a delegated key is within a stored
grant exactly when the grant was not removed after its last enrolment
(`delegated_fires_are_bounded_iff`).  A stranger who drops an expired grant leaves a key that
fires without bounds (`dropped_grant_unbinds_its_key`).
-/

namespace SmartAccount

open Foundation

/-! ## Operations -/

/-- The public key that a call of an authorizer asks for. -/
def AuthorizerCall.askedKey : AuthorizerCall → Option PublicKey
  | .addSessionKey publicKey _ _ _ => some publicKey
  | _ => none

inductive WorldOp where
  | contract (op : Op)
  /-- A call of the contract's reaches the account it was sent to. -/
  | hop (n : Nat)
  | settle (account : AccountId) (n : Nat) (funded : Bool)
  /-- Anyone calls the authorizer of an account; a step of the contract may do so, too. -/
  | ask (account signer predecessor : AccountId) (attachedDeposit prepaidGasTgas : Nat)
      (method : AuthorizerCall)
  /-- An account adds a key, or deletes one, with a full-access key of its own. -/
  | own (account : AccountId) (publicKey : PublicKey) (permission : Option Permission)

/-- The keys that an account makes of its own. -/
def AccessKeys.set (keys : AccessKeys) (publicKey : PublicKey) : Option Permission → AccessKeys
  | none => keys.remove publicKey
  | some permission =>
      match keys.get publicKey with
      | some _ => keys
      | none => keys.insert publicKey permission

/-- An operation of the machine, and the receipts it sends. -/
def KeyWorld.act (w : KeyWorld) (op : Op) : KeyWorld :=
  let m := w.machine.step op
  (m.receipts.drop w.machine.receipts.length).foldl KeyWorld.send { w with machine := m }

structure SigningWorld extends KeyWorld where
  /-- The public keys that were asked for on an account by others than the contract's key
  receipts, or set there by the account itself. -/
  others : List (AccountId × PublicKey)

namespace SigningWorld

def start (host : Host) (ownerId : AccountId) (authorizerId : Option AccountId)
    (authorizers : AccountId → Authorizer) (original : AccountId → AccessKeys) :
    SigningWorld where
  toKeyWorld := KeyWorld.start host ownerId authorizerId authorizers original
  others := []

def step (w : SigningWorld) : WorldOp → SigningWorld
  | .contract op => { w with toKeyWorld := w.toKeyWorld.act op }
  | .hop n => { w with toKeyWorld := w.toKeyWorld.hop n }
  | .settle account n funded => { w with toKeyWorld := w.toKeyWorld.settle account n funded }
  | .ask account signer predecessor attachedDeposit prepaidGasTgas method =>
      { toKeyWorld := w.withRing account
          ((w.rings account).call signer predecessor attachedDeposit prepaidGasTgas method)
        others := w.others ++ method.askedKey.toList.map (account, ·) }
  | .own account publicKey permission =>
      { toKeyWorld := w.withRing account
          { w.rings account with keys := (w.rings account).keys.set publicKey permission }
        others := w.others ++ [(account, publicKey)] }

def run (w : SigningWorld) (ops : List WorldOp) : SigningWorld := ops.foldl step w

/-! ## Delegated keys -/

/-- A key of an account that calls the contract's `execute_trigger` and nothing else, and
that only the contract's key receipts brought there. -/
structure Delegated (original : AccountId → AccessKeys) (w : SigningWorld)
    (account : AccountId) (pk : PublicKey) : Prop where
  permitted : ∃ allowanceYocto, (w.rings account).keys.get pk =
    some (.functionCall allowanceYocto w.self [utf8Bytes "execute_trigger"])
  unowned : (original account).get pk = none
  enrolled : (account, pk) ∉ w.others

/-- A transaction that a delegated key signs for its account; such keys attach nothing. -/
structure SignsFire (original : AccountId → AccessKeys) (w : SigningWorld) (env : Env) :
    Prop where
  delegated : w.Delegated original env.signerId env.signerPk
  direct : env.predecessor = env.signerId
  unpaid : env.attachedDeposit = 0

end SigningWorld

/-- The signer's key has a stored grant that admits this fire. -/
def UsableGrant (c : Contract) (env : Env) (triggerId : String) : Prop :=
  ∃ grant, c.sessionGrants.get env.signerPk = some grant ∧ env.now ≤ grant.expiresAtMs ∧
    grant.fireCount < grant.maxFireCount ∧
    grant.allowedTriggerIds.all (fun ids => triggerId ∈ ids) = true

/-! ## Grants that stand -/

/-- An accepted call that removes the session grant of this text. -/
def Op.removesSession (text : String) (m : Machine) : Op → Bool
  | .transact env (.revokeSession pk) => pk = text && (m.call env (.revokeSession pk)).isOk
  | .transact env .revokeExpiredSessions =>
      text ∈ Machine.expiredSessions env m.contract && (m.call env .revokeExpiredSessions).isOk
  | _ => false

/-- Whether a grant that stood before the operation, or did not, stands after it. -/
def Op.standing (text : String) (m : Machine) (stands : Bool) (op : Op) : Bool :=
  op.enrollsSession text m || (stands && !op.removesSession text m)

/-- The operations of the contract decide. -/
def WorldOp.standing (text : String) (m : Machine) (stands : Bool) : WorldOp → Bool
  | .contract op => op.standing text m stands
  | _ => stands

/-- Whether the grant of this text was enrolled in the run and not removed after that, or stood
before and was not removed. -/
def SigningWorld.grantStands (text : String) : SigningWorld → Bool → List WorldOp → Bool
  | _, stands, [] => stands
  | w, stands, op :: ops => grantStands text (w.step op) (op.standing text w.machine stands) ops

namespace Machine

theorem standing_of_same {text : String} {m m' : Machine} {op : Op}
    (stepped : m.step op = m') (idle : op.enrollsSession text m = false)
    (kept : op.removesSession text m = false)
    (same : m'.contract.sessionGrants = m.contract.sessionGrants) :
    ((m.step op).contract.sessionGrants.get text).isSome =
      op.standing text m (m.contract.sessionGrants.get text).isSome := by
  rw [Op.standing, idle, kept, stepped, same]
  simp

/-- A grant is stored after an operation if the operation says so. -/
theorem step_standing (text : String) (m : Machine) (op : Op) :
    ((m.step op).contract.sessionGrants.get text).isSome =
      op.standing text m (m.contract.sessionGrants.get text).isSome := by
  cases op with
  | timeout id => exact standing_of_same rfl rfl rfl (Undisturbed.timeout m id).sessionGrants
  | abort id answer =>
      exact standing_of_same rfl rfl rfl (Undisturbed.abort m id answer).sessionGrants
  | deliver env id answer =>
      exact standing_of_same rfl rfl rfl (Undisturbed.deliver env m id answer).sessionGrants
  | transact env method =>
      cases called : m.call env method with
      | error message =>
          refine standing_of_same (step_refused called) ?_ ?_ rfl
          · cases method <;> simp [Op.enrollsSession, called, Except.isOk, Except.toBool]
          · cases method <;> simp [Op.removesSession, called, Except.isOk, Except.toBool]
      | ok m' =>
          have stepped := step_transact called
          have effect := Effect.of_call called
          cases effect with
          | executeTrigger authorized stored undisturbed =>
              have kept := undisturbed.sessionGrants
              cases authorized with
              | executor absent executor => exact standing_of_same stepped rfl rfl kept
              | session here inTime left allowed =>
                  rw [Op.standing, stepped, kept]
                  show ((m.contract.sessionGrants.insert env.signerPk _).get text).isSome = _
                  by_cases same : text = env.signerPk
                  · subst same
                    rw [IterableMap.get_insert_self, here]
                    rfl
                  · rw [IterableMap.get_insert_of_ne _ _ same]
                    simp [Op.enrollsSession, Op.removesSession]
          | enrollSession attached owner known funded =>
              rename_i pk expires maxFire allowance label allowed parsed
              rw [stepped]
              show ((m.contract.sessionGrants.insert pk _).get text).isSome = _
              by_cases same : text = pk
              · subst same
                rw [IterableMap.get_insert_self]
                simp [Op.standing, Op.enrollsSession, called, Except.isOk, Except.toBool]
              · rw [IterableMap.get_insert_of_ne _ _ same]
                simp [Op.standing, Op.enrollsSession, Op.removesSession, Ne.symm same]
          | revokeSession owner stored known =>
              rename_i pk parsed
              rw [stepped]
              show ((m.contract.sessionGrants.remove pk).get text).isSome = _
              rw [IterableMap.get_remove]
              by_cases same : text = pk
              · subst same
                simp [Op.standing, Op.enrollsSession, Op.removesSession, called, Except.isOk,
                  Except.toBool]
              · simp [Op.standing, Op.enrollsSession, Op.removesSession, same, Ne.symm same]
          | revokeExpiredSessions =>
              rw [stepped, (revokeExpiredSessions_eq env m).2.1]
              show ((m.contract.sessionGrants.removeAll _).get text).isSome = _
              rw [IterableMap.get_removeAll]
              by_cases expired : text ∈ expiredSessions env m.contract
              · simp [Op.standing, Op.enrollsSession, Op.removesSession, called, Except.isOk,
                  Except.toBool, expired]
              · simp [Op.standing, Op.enrollsSession, Op.removesSession, expired]
          | revokeExpiredProxyKeys =>
              exact standing_of_same stepped rfl rfl (by rw [(revokeExpiredProxyKeys_eq env m).2.1])
          | pruneFinishedAutomationRuns =>
              exact standing_of_same stepped rfl rfl
                (by rw [(pruneFinishedAutomationRuns_eq m).2.1])
          | executeSteps executor sequencing =>
              exact standing_of_same stepped rfl rfl sequencing.sessionGrants
          | registerStep sequencing =>
              exact standing_of_same stepped rfl rfl sequencing.sessionGrants
          | runSequence executor sequencing =>
              exact standing_of_same stepped rfl rfl sequencing.sessionGrants
          | _ => exact standing_of_same stepped rfl rfl rfl

end Machine

namespace KeyWorld

theorem machine_sends (w : KeyWorld) (receipts : List Receipt) :
    (receipts.foldl send w).machine = w.machine := by
  induction receipts generalizing w with
  | nil => rfl
  | cons receipt receipts ih =>
      refine (ih _).trans ?_
      unfold send
      split <;> rfl

theorem machine_act (w : KeyWorld) (op : Op) : (w.act op).machine = w.machine.step op :=
  machine_sends ..

end KeyWorld

namespace SigningWorld

theorem grant_step (text : String) (w : SigningWorld) (op : WorldOp) :
    ((w.step op).machine.contract.sessionGrants.get text).isSome =
      op.standing text w.machine (w.machine.contract.sessionGrants.get text).isSome := by
  cases op with
  | contract op =>
      have stored := Machine.step_standing text w.machine op
      rw [← KeyWorld.machine_act] at stored
      exact stored
  | hop n =>
      have same := KeyWorld.machine_hop w.toKeyWorld n
      show ((w.toKeyWorld.hop n).machine.contract.sessionGrants.get text).isSome = _
      rw [same]
      rfl
  | settle account n funded => rfl
  | ask account signer predecessor attachedDeposit prepaidGasTgas method => rfl
  | own account publicKey permission => rfl

/-- A grant is stored after a run if it stands. -/
theorem grant_run (text : String) (w : SigningWorld) (ops : List WorldOp) :
    ((w.run ops).machine.contract.sessionGrants.get text).isSome =
      w.grantStands text (w.machine.contract.sessionGrants.get text).isSome ops := by
  induction ops generalizing w with
  | nil => rfl
  | cons op ops ih =>
      refine (ih (w.step op)).trans ?_
      rw [grant_step]
      rfl

end SigningWorld

/-! ## Where delegated keys come from -/

/-- The public key that an action adds for the contract's `execute_trigger`. -/
def Action.firingKey (self : AccountId) : Action → Option PublicKey
  | .addKey publicKey _ receiverId methodName =>
      if receiverId = self ∧ splitMethodNames methodName = some [utf8Bytes "execute_trigger"] then
        some publicKey
      else none
  | _ => none

/-- The same, of a receipt that adds a key or asks an authorizer to. -/
def Receipt.firingKey (self : AccountId) (receipt : Receipt) : Option PublicKey :=
  match receipt.action with
  | .functionCall fc =>
      match fc.args with
      | .addSessionKey publicKey allowanceYocto receiverId methodName =>
          (Action.addKey publicKey allowanceYocto receiverId methodName).firingKey self
      | _ => none
  | action => action.firingKey self

/-- An accepted `enroll_session` of a text of this key. -/
def Op.enrollsKey (pk : PublicKey) (m : Machine) : Op → Bool
  | .transact env (.enrollSession text expires allowed maxFire allowance label) =>
      m.host.parsePublicKey text = some pk &&
        (m.call env (.enrollSession text expires allowed maxFire allowance label)).isOk
  | _ => false

def WorldOp.enrollsKey (pk : PublicKey) (m : Machine) : WorldOp → Bool
  | .contract op => op.enrollsKey pk m
  | _ => false

/-- Whether the key was enrolled in a run. -/
def SigningWorld.keyEnrolled (pk : PublicKey) : SigningWorld → List WorldOp → Bool
  | _, [] => false
  | w, op :: ops => op.enrollsKey pk w.machine || keyEnrolled pk (w.step op) ops

namespace KeyRing

/-- The keys for `execute_trigger` that are there, or under way, are known. -/
structure Known (extension : AccountId) (known : PublicKey → Prop) (r : KeyRing) : Prop where
  pending : ∀ request ∈ r.pending, ∀ pk ∈ request.2.firingKey extension, known pk
  keys : ∀ pk allowanceYocto,
    r.keys.get pk = some (.functionCall allowanceYocto extension [utf8Bytes "execute_trigger"]) →
      known pk

namespace Known

variable {extension : AccountId} {known : PublicKey → Prop} {r : KeyRing}

theorem mono (here : r.Known extension known) {known' : PublicKey → Prop}
    (more : ∀ pk, known pk → known' pk) : r.Known extension known' where
  pending := fun request inside pk firing => more pk (here.pending request inside pk firing)
  keys := fun pk allowanceYocto present => more pk (here.keys pk allowanceYocto present)

/-- Known actions wait. -/
theorem push (here : r.Known extension known) (authorizer : Authorizer)
    {requests : List (AccountId × Action)}
    (asked : ∀ request ∈ requests, ∀ pk ∈ request.2.firingKey extension, known pk) :
    KeyRing.Known extension known
      { r with authorizer := authorizer, pending := r.pending ++ requests } where
  pending := fun request inside => by
    rcases List.mem_append.mp inside with earlier | new
    · exact here.pending request earlier
    · exact asked request new
  keys := here.keys

theorem call (here : r.Known extension known) {signer predecessor : AccountId}
    {attachedDeposit prepaidGasTgas : Nat} {method : AuthorizerCall}
    (asked : ∀ pk ∈ method.askedKey, known pk) :
    (r.call signer predecessor attachedDeposit prepaidGasTgas method).Known extension known := by
  unfold KeyRing.call
  split
  · exact here
  · exact ⟨here.pending, here.keys⟩
  · rename_i authorizer action accepted
    split
    · refine here.push authorizer fun request inside pk firing => ?_
      rw [List.mem_singleton.mp inside] at firing
      cases action with
      | functionCall fc => cases firing
      | deleteKey publicKey => cases firing
      | addKey publicKey allowanceYocto receiverId methodName =>
          obtain rfl := Authorizer.call_addKey accepted
          obtain ⟨-, same⟩ := Option.ite_none_right_eq_some.mp firing
          exact asked pk same
    · exact here

/-- A waiting action that settles brings a key that was known when it was asked for. -/
theorem settle (here : r.Known extension known) (n : Nat) (funded : Bool) :
    (r.settle n funded).Known extension known := by
  have left : KeyRing.Known extension known { r with pending := r.pending.eraseIdx n } :=
    ⟨fun request inside => here.pending request (List.mem_of_mem_eraseIdx inside), here.keys⟩
  unfold KeyRing.settle
  split
  · exact here
  · rename_i asker action sent
    dsimp only
    split
    · exact left
    · rename_i keys applied
      refine ⟨left.pending, fun pk allowanceYocto present => ?_⟩
      have settled : r.keys.apply action = some keys := by
        cases funded with
        | false => cases applied
        | true => exact applied
      have replayed := AccessKeys.get_apply r.keys action pk
      rw [settled, Option.getD_some, present] at replayed
      by_cases about : action.publicKey = some pk
      · cases action with
        | functionCall fc => cases about
        | deleteKey publicKey =>
            cases about
            rw [Action.replay, if_pos rfl] at replayed
            cases replayed
        | addKey publicKey allowance receiverId methodName =>
            cases about
            rw [Action.replay, if_pos rfl] at replayed
            cases there : r.keys.get pk with
            | some permission =>
                rw [there, Option.some_or] at replayed
                exact here.keys pk allowanceYocto (there.trans replayed.symm)
            | none =>
                rw [there, Option.none_or] at replayed
                obtain ⟨methodNames, split, same⟩ := Option.map_eq_some_iff.mp replayed.symm
                cases same
                exact here.pending _ (List.mem_of_getElem? sent) pk (if_pos ⟨rfl, split⟩)
      · rw [Action.replay_elsewhere about] at replayed
        exact here.keys pk allowanceYocto replayed.symm

/-- An account knows the keys it sets itself. -/
theorem set (here : r.Known extension known) (publicKey : PublicKey) (permission : Option Permission) :
    KeyRing.Known extension (fun pk => known pk ∨ pk = publicKey)
      { r with keys := r.keys.set publicKey permission } where
  pending := (here.mono fun _ => .inl).pending
  keys := fun pk allowanceYocto present => by
    by_cases same : pk = publicKey
    · exact .inr same
    · refine .inl (here.keys pk allowanceYocto ?_)
      rw [← present]
      cases permission with
      | none => exact (IterableMap.get_remove_of_ne _ same).symm
      | some permission =>
          show _ = (match r.keys.get publicKey with
            | some _ => r.keys
            | none => r.keys.insert publicKey permission).get pk
          split
          · rfl
          · exact (IterableMap.get_insert_of_ne _ _ same).symm

end Known

end KeyRing

/-! ## Receipts of the contract -/

namespace Machine

theorem firingKey_addKeyReceipt (env : Env) (m : Machine) (methodName : String)
    (parsedPk : PublicKey) (allowanceYocto : Nat) :
    (m.addKeyReceipt env methodName parsedPk allowanceYocto).firingKey m.host.currentAccountId =
      if splitMethodNames methodName = some [utf8Bytes "execute_trigger"] then some parsedPk
      else none := by
  unfold addKeyReceipt
  cases m.contract.authorizerId <;> simp [Receipt.firingKey, Action.firingKey]

theorem firingKey_deleteKeyReceipt (env : Env) (m : Machine) (parsedPk : PublicKey) :
    (m.deleteKeyReceipt env parsedPk).firingKey m.host.currentAccountId = none := by
  unfold deleteKeyReceipt
  cases m.contract.authorizerId <;> rfl

theorem firingKey_expiryReceipts {env : Env} {m : Machine} {expired : List String}
    {receipt : Receipt} (sent : receipt ∈ m.expiryReceipts env expired) :
    receipt.firingKey m.host.currentAccountId = none := by
  obtain ⟨parsed, -, rfl⟩ := List.mem_map.mp sent
  exact firingKey_deleteKeyReceipt env m parsed

/-- What an operation sends brings a key for `execute_trigger` only where it enrols the key. -/
structure Sends (m : Machine) (op : Op) (sent : List Receipt) : Prop where
  receipts : (m.step op).receipts = m.receipts ++ sent
  enrolled : ∀ receipt ∈ sent, ∀ pk ∈ receipt.firingKey m.host.currentAccountId,
    op.enrollsKey pk m = true

theorem Sends.nothing {m m' : Machine} {op : Op} (stepped : m.step op = m')
    (same : m'.receipts = m.receipts) : Sends m op [] where
  receipts := by rw [stepped, same, List.append_nil]
  enrolled := fun receipt inside => absurd inside List.not_mem_nil

/-- Receipts that bring no such key. -/
theorem Sends.others {m m' : Machine} {op : Op} (stepped : m.step op = m') {sent : List Receipt}
    (receipts : m'.receipts = m.receipts ++ sent)
    (none : ∀ receipt ∈ sent, receipt.firingKey m.host.currentAccountId = none) :
    Sends m op sent where
  receipts := by rw [stepped, receipts]
  enrolled := fun receipt inside pk firing => by
    rw [none receipt inside] at firing
    cases firing

theorem step_sends (m : Machine) (op : Op) : ∃ sent, Sends m op sent := by
  cases op with
  | timeout id => exact ⟨[], .nothing rfl (Undisturbed.timeout m id).receipts⟩
  | abort id answer => exact ⟨[], .nothing rfl (Undisturbed.abort m id answer).receipts⟩
  | deliver env id answer => exact ⟨[], .nothing rfl (Undisturbed.deliver env m id answer).receipts⟩
  | transact env method =>
      cases called : m.call env method with
      | error message => exact ⟨[], .nothing (step_refused called) rfl⟩
      | ok m' =>
          have stepped := step_transact called
          have effect := Effect.of_call called
          cases effect with
          | executeTrigger authorized stored undisturbed =>
              refine ⟨[], .nothing stepped (undisturbed.receipts.trans ?_)⟩
              cases authorized <;> rfl
          | executeSteps executor sequencing => exact ⟨[], .nothing stepped sequencing.receipts⟩
          | registerStep sequencing => exact ⟨[], .nothing stepped sequencing.receipts⟩
          | runSequence executor sequencing => exact ⟨[], .nothing stepped sequencing.receipts⟩
          | pruneFinishedAutomationRuns =>
              exact ⟨[], .nothing stepped (pruneFinishedAutomationRuns_eq m).2.2⟩
          | enrollSession attached owner known funded =>
              rename_i pk expires maxFire allowance label allowed parsed
              refine ⟨[m.addKeyReceipt env "execute_trigger" parsed allowance], ?_, ?_⟩
              · rw [stepped]
              · intro receipt inside pk' firing
                rw [List.mem_singleton.mp inside, firingKey_addKeyReceipt] at firing
                obtain ⟨-, same⟩ := Option.ite_none_right_eq_some.mp firing
                cases same
                simp [Op.enrollsKey, known, called, Except.isOk, Except.toBool]
          | enrollProxyKey attached owner known funded =>
              rename_i pk expires attach maxGas maxCall allowance targets methods label parsed
              refine ⟨[m.addKeyReceipt env "proxy_call" parsed allowance], .others stepped rfl ?_⟩
              intro receipt inside
              rw [List.mem_singleton.mp inside, firingKey_addKeyReceipt]
              exact if_neg (by decide)
          | revokeSession owner stored known =>
              rename_i pk parsed
              refine ⟨[m.deleteKeyReceipt env parsed], .others stepped rfl ?_⟩
              intro receipt inside
              rw [List.mem_singleton.mp inside]
              exact firingKey_deleteKeyReceipt env m parsed
          | revokeProxyKey owner stored known =>
              rename_i pk parsed
              refine ⟨[m.deleteKeyReceipt env parsed], .others stepped rfl ?_⟩
              intro receipt inside
              rw [List.mem_singleton.mp inside]
              exact firingKey_deleteKeyReceipt env m parsed
          | revokeExpiredSessions =>
              exact ⟨_, .others stepped (revokeExpiredSessions_eq env m).2.2
                fun receipt => firingKey_expiryReceipts⟩
          | revokeExpiredProxyKeys =>
              exact ⟨_, .others stepped (revokeExpiredProxyKeys_eq env m).2.2
                fun receipt => firingKey_expiryReceipts⟩
          | proxyCall stored inTime left aimed permitted =>
              refine ⟨_, .others stepped rfl ?_⟩
              intro receipt inside
              rw [List.mem_singleton.mp inside]
              rfl
          | _ => exact ⟨[], .nothing stepped rfl⟩

end Machine

/-- An authorizer answers with a key only where it was asked for one. -/
theorem Authorizer.answer_firingKey {a : Authorizer} {receipt : Receipt}
    {account signer predecessor extension : AccountId} {fc : FunctionCall} {action : Action}
    (answered : a.answer account signer predecessor fc = some action)
    (called : receipt.action = .functionCall fc) {pk : PublicKey}
    (firing : pk ∈ action.firingKey extension) : pk ∈ receipt.firingKey extension := by
  unfold Authorizer.answer at answered
  split at answered
  · cases answered
  · rename_i method decoded
    split at answered
    · rename_i a' action' accepted
      obtain ⟨-, same⟩ := Option.ite_none_right_eq_some.mp answered
      cases same
      cases action with
      | functionCall inner => cases firing
      | deleteKey publicKey => cases firing
      | addKey publicKey allowanceYocto receiverId methodName =>
          obtain rfl := Authorizer.call_addKey accepted
          unfold AuthorizerCall.decode at decoded
          split at decoded
          · obtain ⟨-, same⟩ := Option.ite_none_right_eq_some.mp decoded
            cases same
          · rename_i args
            obtain ⟨-, same⟩ := Option.ite_none_right_eq_some.mp decoded
            cases same
            rw [Receipt.firingKey, called]
            simp only [args]
            exact firing
          · obtain ⟨-, same⟩ := Option.ite_none_right_eq_some.mp decoded
            cases same
          · cases decoded
    · cases answered

namespace SigningWorld

/-- Every key for `execute_trigger` that is there, or under way, was enrolled, was brought there
by others, or was there from the beginning. -/
structure Sourced (extension : AccountId) (original : AccountId → AccessKeys)
    (enrolled : PublicKey → Prop) (w : SigningWorld) : Prop where
  home : w.self = extension
  hops : ∀ receipt ∈ w.hops, ∀ pk ∈ receipt.firingKey extension, enrolled pk
  rings : ∀ account, (w.rings account).Known extension fun pk =>
    enrolled pk ∨ (account, pk) ∈ w.others ∨ (original account).get pk ≠ none

namespace Sourced

variable {extension : AccountId} {original : AccountId → AccessKeys}
  {enrolled : PublicKey → Prop} {w : SigningWorld}

theorem mono (sourced : w.Sourced extension original enrolled) {enrolled' : PublicKey → Prop}
    (more : ∀ pk, enrolled pk → enrolled' pk) : w.Sourced extension original enrolled' where
  home := sourced.home
  hops := fun receipt inside pk firing => more pk (sourced.hops receipt inside pk firing)
  rings := fun account => (sourced.rings account).mono fun pk => Or.imp_left (more pk)

/-- One ring that stays known, and whatever else others bring. -/
theorem withRing (sourced : w.Sourced extension original enrolled) {account : AccountId}
    {ring : KeyRing} {others : List (AccountId × PublicKey)}
    (more : ∀ entry ∈ w.others, entry ∈ others)
    (known : ring.Known extension fun pk =>
      enrolled pk ∨ (account, pk) ∈ others ∨ (original account).get pk ≠ none) :
    SigningWorld.Sourced extension original enrolled ⟨w.withRing account ring, others⟩ where
  home := sourced.home
  hops := sourced.hops
  rings := fun other => by
    by_cases same : other = account
    · subst same
      rw [KeyWorld.rings_withRing_self]
      exact known
    · rw [KeyWorld.rings_withRing_of_ne _ same]
      exact (sourced.rings other).mono fun pk =>
        Or.imp_right (Or.imp_left (more (other, pk)))

/-- A receipt that brings an enrolled key, if any. -/
theorem send (sourced : w.Sourced extension original enrolled) {receipt : Receipt}
    (brings : ∀ pk ∈ receipt.firingKey extension, enrolled pk) :
    SigningWorld.Sourced extension original enrolled ⟨w.toKeyWorld.send receipt, w.others⟩ := by
  have pushed : ∀ action, (∀ pk ∈ action.firingKey extension, enrolled pk) →
      SigningWorld.Sourced extension original enrolled
        ⟨w.toKeyWorld.withPending receipt.receiverId [action], w.others⟩ := by
    intro action known
    refine sourced.withRing (fun _ => id) ((sourced.rings _).push _ fun request inside pk firing => ?_)
    rw [List.mem_singleton.mp inside] at firing
    exact .inl (known pk firing)
  obtain ⟨receiverId, signerId, action⟩ := receipt
  cases action with
  | functionCall fc =>
      refine ⟨sourced.home, fun receipt inside => ?_, sourced.rings⟩
      rcases List.mem_append.mp inside with earlier | new
      · exact sourced.hops receipt earlier
      · rw [List.mem_singleton.mp new]
        exact brings
  | addKey publicKey allowanceYocto receiverId' methodName => exact pushed _ brings
  | deleteKey publicKey => exact pushed _ brings

theorem sends (sourced : w.Sourced extension original enrolled) {receipts : List Receipt}
    (brings : ∀ receipt ∈ receipts, ∀ pk ∈ receipt.firingKey extension, enrolled pk) :
    SigningWorld.Sourced extension original enrolled
      ⟨receipts.foldl KeyWorld.send w.toKeyWorld, w.others⟩ := by
  induction receipts generalizing w with
  | nil => exact sourced
  | cons receipt receipts ih =>
      obtain ⟨first, later⟩ := List.forall_mem_cons.mp brings
      exact ih (sourced.send first) later

theorem act (sourced : w.Sourced extension original enrolled) (op : Op) :
    (w.step (.contract op)).Sourced extension original
      fun pk => enrolled pk ∨ op.enrollsKey pk w.machine = true := by
  obtain ⟨sent, sends⟩ := w.machine.step_sends op
  have host := (w.machine.step_owner op).2
  have stepped : SigningWorld.Sourced extension original
      (fun pk => enrolled pk ∨ op.enrollsKey pk w.machine = true)
      ⟨{ w.toKeyWorld with machine := w.machine.step op }, w.others⟩ :=
    { sourced.mono (fun _ => .inl) with
      home := (congrArg Host.currentAccountId host).trans sourced.home }
  have home := sourced.home
  show SigningWorld.Sourced extension original _ ⟨w.toKeyWorld.act op, w.others⟩
  unfold KeyWorld.act
  dsimp only
  rw [sends.receipts, List.drop_left]
  refine stepped.sends fun receipt inside pk firing => .inr ?_
  exact sends.enrolled receipt inside pk (by rw [← home] at firing; exact firing)

theorem hop (sourced : w.Sourced extension original enrolled) (n : Nat) :
    (w.step (.hop n)).Sourced extension original enrolled := by
  show SigningWorld.Sourced extension original enrolled ⟨w.toKeyWorld.hop n, w.others⟩
  unfold KeyWorld.hop
  split
  · exact sourced
  · rename_i receipt found
    have inside := List.mem_of_getElem? found
    have rest : SigningWorld.Sourced extension original enrolled
        ⟨{ w.toKeyWorld with hops := w.hops.eraseIdx n }, w.others⟩ :=
      { sourced with
        hops := fun receipt inside => sourced.hops receipt (List.mem_of_mem_eraseIdx inside) }
    dsimp only
    split
    · rename_i fc called
      split
      · exact rest
      · refine rest.withRing (fun _ => id) ?_
        rw [KeyRing.receive_eq]
        refine (sourced.rings _).push _ fun request inside' pk firing => .inl ?_
        obtain ⟨action, answered, same⟩ := List.mem_map.mp inside'
        cases same
        exact sourced.hops receipt inside pk
          (Authorizer.answer_firingKey (Option.mem_toList.mp answered) called firing)
    · exact rest

theorem step (sourced : w.Sourced extension original enrolled) (op : WorldOp) :
    (w.step op).Sourced extension original
      fun pk => enrolled pk ∨ op.enrollsKey pk w.machine = true := by
  cases op with
  | contract op => exact sourced.act op
  | hop n => exact (sourced.hop n).mono fun _ => .inl
  | settle account n funded =>
      exact (sourced.withRing (fun _ => id) ((sourced.rings account).settle n funded)).mono
        fun _ => .inl
  | ask account signer predecessor attachedDeposit prepaidGasTgas method =>
      refine (sourced.withRing (fun _ => List.mem_append_left _) ?_).mono fun _ => .inl
      refine ((sourced.rings account).mono fun pk => Or.imp_right (Or.imp_left
        (List.mem_append_left _))).call fun pk asked => .inr (.inl ?_)
      exact List.mem_append_right _ (List.mem_map_of_mem (Option.mem_toList.mpr asked))
  | own account publicKey permission =>
      refine (sourced.withRing (fun _ => List.mem_append_left _) ?_).mono fun _ => .inl
      refine ((sourced.rings account).set publicKey permission).mono fun pk known => ?_
      rcases known with known | rfl
      · exact Or.imp_right (Or.imp_left (List.mem_append_left _)) known
      · exact .inr (.inl (List.mem_append_right _ (List.mem_singleton.mpr rfl)))

theorem run (sourced : w.Sourced extension original enrolled) (ops : List WorldOp) :
    (w.run ops).Sourced extension original
      fun pk => enrolled pk ∨ w.keyEnrolled pk ops = true := by
  induction ops generalizing w enrolled with
  | nil => exact sourced.mono fun _ => .inl
  | cons op ops ih =>
      refine (ih (sourced.step op)).mono fun pk known => ?_
      rw [keyEnrolled, Bool.or_eq_true, ← or_assoc]
      exact known

end Sourced

theorem Sourced.start (host : Host) (ownerId : AccountId) (authorizerId : Option AccountId)
    (authorizers : AccountId → Authorizer) (original : AccountId → AccessKeys) :
    (SigningWorld.start host ownerId authorizerId authorizers original).Sourced
      host.currentAccountId original fun _ => False where
  home := rfl
  hops := fun receipt inside => absurd inside List.not_mem_nil
  rings := fun account =>
    { pending := fun request inside => absurd inside List.not_mem_nil
      keys := fun pk allowanceYocto present => by
        have own : (original account).get pk = _ := present
        exact .inr (.inr (by rw [own]; exact Option.some_ne_none _)) }

end SigningWorld

/-! ## Bounded fires -/

/-- In every state of every run from a deployment, a transaction that a delegated key signs
fires a trigger only within a grant stored for the key. -/
def FiresAreBounded (host : Host) (ownerId : AccountId) (authorizerId : Option AccountId)
    (authorizers : AccountId → Authorizer) (original : AccountId → AccessKeys) : Prop :=
  ∀ ops env triggerId,
    ((SigningWorld.start host ownerId authorizerId authorizers original).run ops).SignsFire
      original env →
    (((SigningWorld.start host ownerId authorizerId authorizers original).run ops).machine.call env
      (.executeTrigger triggerId)).isOk = true →
    UsableGrant
      ((SigningWorld.start host ownerId authorizerId authorizers original).run ops).machine.contract
      env triggerId

/-- An accepted fire is within a grant if one is stored for the signer at all. -/
theorem Machine.usable_iff_stored {m : Machine} {env : Env} {triggerId : String}
    (accepted : (m.call env (.executeTrigger triggerId)).isOk = true) :
    UsableGrant m.contract env triggerId ↔
      (m.contract.sessionGrants.get env.signerPk).isSome = true := by
  cases called : m.call env (.executeTrigger triggerId) with
  | error message =>
      rw [called] at accepted
      cases accepted
  | ok m' =>
      have effect := Effect.of_call called
      cases effect with
      | executeTrigger authorized =>
          cases authorized with
          | executor absent executor =>
              rw [absent]
              refine iff_of_false ?_ (by simp)
              rintro ⟨grant, stored, -⟩
              cases absent.symm.trans stored
          | session stored inTime left allowed =>
              rw [stored]
              exact iff_of_true ⟨_, stored, inTime, left, allowed⟩ rfl

/-- In every run of transactions by anyone, receipts and callbacks, from any deployment: a key
that signs a fire as a delegated key was enrolled, and the accepted fire is within a grant
stored for the key exactly when that grant was not removed after its last enrolment. -/
theorem delegated_fires_are_bounded_iff (host : Host) (ownerId : AccountId)
    (authorizerId : Option AccountId) (authorizers : AccountId → Authorizer)
    (original : AccountId → AccessKeys) (ops : List WorldOp) (env : Env) (triggerId : String)
    (signs : ((SigningWorld.start host ownerId authorizerId authorizers original).run
      ops).SignsFire original env)
    (accepted : (((SigningWorld.start host ownerId authorizerId authorizers original).run
      ops).machine.call env (.executeTrigger triggerId)).isOk = true) :
    (SigningWorld.start host ownerId authorizerId authorizers original).keyEnrolled
        env.signerPk ops = true ∧
      (UsableGrant ((SigningWorld.start host ownerId authorizerId authorizers original).run
          ops).machine.contract env triggerId ↔
        (SigningWorld.start host ownerId authorizerId authorizers original).grantStands
          env.signerPk false ops = true) := by
  constructor
  · have sourced := (SigningWorld.Sourced.start host ownerId authorizerId authorizers original).run
      ops
    obtain ⟨⟨⟨allowanceYocto, permitted⟩, unowned, enrolled⟩, -, -⟩ := signs
    rw [sourced.home] at permitted
    rcases (sourced.rings env.signerId).keys _ allowanceYocto permitted with
      (impossible | known) | brought | own
    · exact absurd impossible id
    · exact known
    · exact absurd brought enrolled
    · exact absurd unowned own
  · rw [Machine.usable_iff_stored accepted, SigningWorld.grant_run]
    rfl

/-- One accepted fire of a delegated key without a grant. -/
theorem not_firesAreBounded {host : Host} {ownerId : AccountId} {authorizerId : Option AccountId}
    {authorizers : AccountId → Authorizer} {original : AccountId → AccessKeys}
    (ops : List WorldOp) (env : Env) (triggerId : String)
    (signs : ((SigningWorld.start host ownerId authorizerId authorizers original).run
      ops).SignsFire original env)
    (accepted : (((SigningWorld.start host ownerId authorizerId authorizers original).run
      ops).machine.call env (.executeTrigger triggerId)).isOk = true)
    (removed : ((SigningWorld.start host ownerId authorizerId authorizers original).run
      ops).machine.contract.sessionGrants.get env.signerPk = none) :
    ¬ FiresAreBounded host ownerId authorizerId authorizers original := by
  intro bounded
  obtain ⟨grant, stored, -⟩ := bounded ops env triggerId signs accepted
  cases removed.symm.trans stored

/-- Alice prepares a trigger and enrols a session key for three fires, up to a time. -/
def delegation : List WorldOp :=
  [.contract (.transact aliceEnv (.saveSequenceTemplate "plan" [plainStep "a"])),
    .contract (.transact aliceEnv (.createBalanceTrigger "daily" "plan" 0 5)),
    .contract (.transact { aliceEnv with attachedDeposit := 1 }
      (.enrollSession "ed25519:session" 10 none 3 1 none))]

/-- A stranger drops the expired sessions when the time has come. -/
def strangerDrops : WorldOp :=
  .contract (.transact ⟨stranger, stranger, "ed25519:stranger", 10, 0, 1000, 0⟩
    .revokeExpiredSessions)

/-- Alice's account, in a transaction that the session key signs at this time. -/
def sessionEnv (now : Nat) : Env := { aliceEnv with signerPk := "ed25519:session", now := now }

/-- The contract on Alice's own account. -/
abbrev standaloneSigning : SigningWorld :=
  .start aliceHost alice none (fun _ => Authorizer.newWithOwner alice) accountKeys

/-- The contract as an extension of Alice's account, armed by her authorizer. -/
abbrev extensionSigning : SigningWorld :=
  .start extensionHost alice (some alice) (fun _ => Authorizer.armedForMarket) accountKeys

/-- The key is added to Alice's account. -/
abbrev delegatedAtAuthorizer : List WorldOp := delegation ++ [.hop 0, .settle alice 0 true]

/-- The session key fires while its grant stands. -/
theorem delegated_fires_are_bounded_session :
    UsableGrant (extensionSigning.run delegatedAtAuthorizer).machine.contract (sessionEnv 5)
      "daily" := by
  have signs : (extensionSigning.run delegatedAtAuthorizer).SignsFire accountKeys (sessionEnv 5) :=
    ⟨⟨⟨1, by decide⟩, by decide, by decide⟩, rfl, rfl⟩
  have accepted : ((extensionSigning.run delegatedAtAuthorizer).machine.call (sessionEnv 5)
      (.executeTrigger "daily")).isOk = true := by decide
  have stands : extensionSigning.grantStands "ed25519:session" false delegatedAtAuthorizer =
      true := by decide
  exact (delegated_fires_are_bounded_iff extensionHost alice (some alice)
    (fun _ => Authorizer.armedForMarket) accountKeys delegatedAtAuthorizer (sessionEnv 5) "daily"
    signs accepted).2.mpr stands

/-- The receipt that deletes the key has not settled yet. -/
abbrev droppedOnOwnAccount : List WorldOp := delegation ++ [.settle alice 0 true, strangerDrops]

/-- The authorizer has refused to delete the key, for Alice has not signed. -/
abbrev droppedAtAuthorizer : List WorldOp :=
  delegatedAtAuthorizer ++ [strangerDrops, .hop 0, .settle alice 0 true]

/-- A stranger's call removes the expired grant, and the key fires without one: on Alice's own
account until its receipt settles, at an authorizer for good. -/
theorem dropped_grant_unbinds_its_key :
    ¬ FiresAreBounded aliceHost alice none (fun _ => Authorizer.newWithOwner alice) accountKeys ∧
    ¬ FiresAreBounded extensionHost alice (some alice) (fun _ => Authorizer.armedForMarket)
        accountKeys := by
  constructor
  · have signs : (standaloneSigning.run droppedOnOwnAccount).SignsFire accountKeys
        (sessionEnv 20) :=
      ⟨⟨⟨1, by decide⟩, by decide, by decide⟩, rfl, rfl⟩
    have accepted : ((standaloneSigning.run droppedOnOwnAccount).machine.call (sessionEnv 20)
        (.executeTrigger "daily")).isOk = true := by decide
    have removed : (standaloneSigning.run droppedOnOwnAccount).machine.contract.sessionGrants.get
        (sessionEnv 20).signerPk = none := by decide
    exact not_firesAreBounded droppedOnOwnAccount (sessionEnv 20) "daily" signs accepted removed
  · have signs : (extensionSigning.run droppedAtAuthorizer).SignsFire accountKeys
        (sessionEnv 20) :=
      ⟨⟨⟨1, by decide⟩, by decide, by decide⟩, rfl, rfl⟩
    have accepted : ((extensionSigning.run droppedAtAuthorizer).machine.call (sessionEnv 20)
        (.executeTrigger "daily")).isOk = true := by decide
    have removed : (extensionSigning.run droppedAtAuthorizer).machine.contract.sessionGrants.get
        (sessionEnv 20).signerPk = none := by decide
    exact not_firesAreBounded droppedAtAuthorizer (sessionEnv 20) "daily" signs accepted removed

end SmartAccount
