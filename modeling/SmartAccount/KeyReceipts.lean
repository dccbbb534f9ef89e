import SmartAccount.KeyWorld

/-!
# Receipts for access keys

A receipt for a key reaches the account that holds the keys by itself or through its authorizer,
and settles there.  None of this changes the `forecast`: what a hop or a settled action leaves is
what the forecast had counted in (`forecast_hop`, `forecast_settle`).
-/

namespace SmartAccount

open Foundation

namespace KeyWorld

/-! ## Rings and receipts -/

section Rings

variable {original : AccountId → AccessKeys} {w : KeyWorld}

theorem rings_withRing_self (account : AccountId) (ring : KeyRing) :
    (w.withRing account ring).rings account = ring := Function.update_self ..

theorem withRing_same (account : AccountId) : w.withRing account (w.rings account) = w := by
  unfold withRing
  rw [Function.update_eq_self]

theorem authorizers_withRing {account : AccountId} {ring : KeyRing}
    (same : ring.authorizer = (w.rings account).authorizer) :
    (w.withRing account ring).authorizers = w.authorizers := by
  funext other
  unfold authorizers
  by_cases here : other = account
  · subst here
    rw [rings_withRing_self, same]
  · rw [rings_withRing_of_ne ring here]

theorem authorizers_withPending (account : AccountId) (actions : List Action) :
    (w.withPending account actions).authorizers = w.authorizers :=
  authorizers_withRing rfl

/-- New requests are the last to settle before the calls that are still on their way. -/
theorem forecast_withPending (account : AccountId) (actions : List Action) (other : AccountId)
    (pk : PublicKey) :
    (w.withPending account actions).forecast other pk =
      w.hops.foldl (Receipt.replay w.authorizers w.self other pk)
        ((if account = other then actions else []).foldl (fun p action => action.replay pk p)
          ((w.rings other).pending.foldl (fun p request => request.2.replay pk p)
            ((w.rings other).keys.get pk))) := by
  unfold forecast
  rw [authorizers_withPending]
  show w.hops.foldl _ _ = _
  congr 1
  unfold withPending
  by_cases here : other = account
  · subst here
    rw [rings_withRing_self, if_pos rfl, List.foldl_append, List.foldl_map]
  · rw [rings_withRing_of_ne _ here, if_neg fun same => here same.symm, List.foldl_nil]

theorem Steady.withPending (steady : Steady original w) {account : AccountId}
    {actions : List Action}
    (foreign : ∀ action ∈ actions, ∀ pk ∈ action.publicKey, (original account).get pk = none) :
    Steady original (w.withPending account actions) := by
  have ring : ∀ other, other ≠ account → (w.withPending account actions).rings other =
      w.rings other := fun other distinct => rings_withRing_of_ne _ distinct
  have here : (w.withPending account actions).rings account = _ := rings_withRing_self ..
  constructor
  · intro other
    by_cases same : other = account
    · subst same
      rw [here]
      exact steady.account other
    · rw [ring other same]
      exact steady.account other
  · exact steady.calls
  · intro other request inside
    by_cases same : other = account
    · subst same
      rw [here, List.mem_append, List.mem_map] at inside
      rcases inside with earlier | ⟨action, asked, rfl⟩
      · exact steady.pending other request earlier
      · exact ⟨rfl, foreign action asked⟩
    · rw [ring other same] at inside
      exact steady.pending other request inside
  · rw [authorizers_withPending]
    exact steady.underway
  · intro other pk
    by_cases same : other = account
    · subst same
      rw [here]
      exact steady.logged other pk
    · rw [ring other same]
      exact steady.logged other pk

theorem withPending_nil (account : AccountId) : w.withPending account [] = w := by
  unfold withPending
  rw [List.map_nil, List.append_nil]
  exact withRing_same account

/-! ## A call reaches an authorizer -/

theorem hop_eq (steady : Steady original w) {n : Nat} {receipt : Receipt}
    (found : w.hops[n]? = some receipt) :
    w.hop n = { w with hops := w.hops.eraseIdx n }.withPending receipt.receiverId
      (receipt.requested w.authorizers w.self).toList := by
  obtain ⟨fc, called⟩ := steady.calls receipt (List.mem_of_getElem? found)
  unfold hop Receipt.requested
  simp only [found, called]
  split
  · rw [Option.toList_none, withPending_nil]
  · have answer : (w.rings receipt.receiverId).authorizer.answer
        (w.rings receipt.receiverId).account receipt.signerId w.self fc =
        (w.authorizers receipt.receiverId).answer receipt.receiverId receipt.signerId w.self fc := by
      rw [steady.account]
      rfl
    rw [KeyRing.receive_eq, answer]
    rfl

theorem forecast_hop (steady : Steady original w) {n : Nat}
    (inTurn : InTurn (Receipt.target w.authorizers w.self) w.hops n) :
    (w.hop n).forecast = w.forecast := by
  cases found : w.hops[n]? with
  | none =>
      unfold hop
      rw [found]
  | some receipt =>
      funext account pk
      rw [hop_eq steady found, forecast_withPending]
      refine Eq.trans (congrArg (fun cell => List.foldl _ cell _) ?_)
        (inTurn.foldl Receipt.replay_elsewhere found _)
      unfold Receipt.replay
      split
      · cases receipt.requested w.authorizers w.self <;> rfl
      · rfl

theorem Steady.hop (steady : Steady original w) (n : Nat) : Steady original (w.hop n) := by
  cases found : w.hops[n]? with
  | none =>
      unfold KeyWorld.hop
      rw [found]
      exact steady
  | some receipt =>
      rw [hop_eq steady found]
      have rest : Steady original { w with hops := w.hops.eraseIdx n } :=
        { steady with
          calls := fun receipt inside => steady.calls receipt (List.mem_of_mem_eraseIdx inside)
          underway := fun receipt inside =>
            steady.underway receipt (List.mem_of_mem_eraseIdx inside) }
      refine rest.withPending fun action asked pk about => ?_
      refine steady.underway receipt (List.mem_of_getElem? found) (receipt.receiverId, pk) ?_
      rw [Option.mem_toList] at asked
      rw [Receipt.target, Option.mem_def.mp asked, Option.bind_some, Option.mem_def.mp about]
      rfl

/-! ## A key action settles -/

theorem authorizers_settle (account : AccountId) (n : Nat) (funded : Bool) :
    (w.settle account n funded).authorizers = w.authorizers := by
  refine authorizers_withRing ?_
  unfold KeyRing.settle
  split
  · rfl
  · dsimp only
    split <;> rfl

theorem settle_of_none {account : AccountId} {n : Nat}
    (nothing : (w.rings account).pending[n]? = none) (funded : Bool) :
    w.settle account n funded = w := by
  unfold settle
  rw [KeyRing.settle_of_none nothing, withRing_same]

theorem forecast_settle {account : AccountId} {n : Nat} {funded : Bool}
    (orderly : Orderly original w (.settle account n funded)) :
    (w.settle account n funded).forecast = w.forecast := by
  obtain ⟨carried, inTurn⟩ := orderly
  cases sent : (w.rings account).pending[n]? with
  | none => rw [settle_of_none sent]
  | some request =>
      obtain ⟨extension, action⟩ := request
      cases carried (List.getElem?_eq_some_iff.mp sent).1
      funext other pk
      unfold forecast
      rw [authorizers_settle]
      show w.hops.foldl _ _ = _
      congr 1
      unfold settle
      by_cases here : other = account
      · subst here
        rw [rings_withRing_self, KeyRing.settle_eq sent]
        dsimp only
        rw [AccessKeys.get_apply]
        have elsewhere : ∀ (cell : Option Permission) (request : AccountId × Action),
            request.2.publicKey ≠ some pk → request.2.replay pk cell = cell :=
          fun cell request about => Action.replay_elsewhere about cell
        exact inTurn.foldl elsewhere sent _
      · rw [rings_withRing_of_ne _ here]

theorem Steady.settle (steady : Steady original w) {account : AccountId} {n : Nat}
    {funded : Bool} (orderly : Orderly original w (.settle account n funded)) :
    Steady original (w.settle account n funded) := by
  obtain ⟨carried, -⟩ := orderly
  cases sent : (w.rings account).pending[n]? with
  | none =>
      rw [settle_of_none sent]
      exact steady
  | some request =>
      obtain ⟨extension, action⟩ := request
      cases carried (List.getElem?_eq_some_iff.mp sent).1
      obtain ⟨own, foreign⟩ := steady.pending account _ (List.mem_of_getElem? sent)
      have ring : ∀ other, other ≠ account → (w.settle account n true).rings other =
          w.rings other := fun other distinct => rings_withRing_of_ne _ distinct
      have here : (w.settle account n true).rings account = _ :=
        (rings_withRing_self ..).trans (KeyRing.settle_eq sent)
      constructor
      · intro other
        by_cases same : other = account
        · subst same
          rw [here]
          exact steady.account other
        · rw [ring other same]
          exact steady.account other
      · exact steady.calls
      · intro other request inside
        by_cases same : other = account
        · subst same
          rw [here] at inside
          exact steady.pending other request (List.mem_of_mem_eraseIdx inside)
        · rw [ring other same] at inside
          exact steady.pending other request inside
      · rw [authorizers_settle]
        exact steady.underway
      · intro other pk
        by_cases same : other = account
        · subst same
          rw [here]
          dsimp only at own ⊢
          rw [own]
          exact (steady.logged other pk).settle foreign
        · rw [ring other same]
          exact steady.logged other pk

/-! ## The contract sends -/

/-- A call to another account, or a key action on the contract's own. -/
def Posted (self : AccountId) (receipt : Receipt) : Prop :=
  (∃ fc, receipt.action = .functionCall fc) ∨ receipt.receiverId = self

theorem send_cases {receipt : Receipt} (posted : Posted w.self receipt) :
    ((∃ fc, receipt.action = .functionCall fc) ∧
        w.send receipt = { w with hops := w.hops ++ [receipt] }) ∨
      (receipt.receiverId = w.self ∧
        receipt.requested w.authorizers w.self = some receipt.action ∧
        w.send receipt = w.withPending receipt.receiverId [receipt.action]) := by
  obtain ⟨receiverId, signerId, action⟩ := receipt
  rcases posted with ⟨fc, called⟩ | home
  · cases called
    exact .inl ⟨⟨fc, rfl⟩, rfl⟩
  · cases action with
    | functionCall fc => exact .inl ⟨⟨fc, rfl⟩, rfl⟩
    | addKey publicKey allowanceYocto receiverId' methodName => exact .inr ⟨home, rfl, rfl⟩
    | deleteKey publicKey => exact .inr ⟨home, rfl, rfl⟩

/-- No call on its way changes a key of the contract's own account. -/
theorem Steady.hops_elsewhere (steady : Steady original w) (pk : PublicKey)
    (permission : Option Permission) :
    w.hops.foldl (Receipt.replay w.authorizers w.self w.self pk) permission = permission := by
  refine foldl_elsewhere Receipt.replay_elsewhere (fun receipt inside target => ?_) permission
  obtain ⟨fc, called⟩ := steady.calls receipt inside
  obtain ⟨pk', about, same⟩ := Option.map_eq_some_iff.mp target
  obtain ⟨home, -⟩ := Prod.mk.inj same
  simp only [Receipt.requested, called, if_pos home, Option.bind_none] at about
  cases about

theorem machine_send {receipt : Receipt} (posted : Posted w.self receipt) :
    (w.send receipt).machine = w.machine := by
  rcases send_cases posted with ⟨-, sent⟩ | ⟨-, -, sent⟩
  · rw [sent]
  · rw [sent]
    rfl

theorem authorizers_send {receipt : Receipt} (posted : Posted w.self receipt) :
    (w.send receipt).authorizers = w.authorizers := by
  rcases send_cases posted with ⟨-, sent⟩ | ⟨-, -, sent⟩
  · rw [sent]
    rfl
  · rw [sent, authorizers_withPending]

theorem forecast_send (steady : Steady original w) {receipt : Receipt}
    (posted : Posted w.self receipt) (account : AccountId) (pk : PublicKey) :
    (w.send receipt).forecast account pk =
      receipt.replay w.authorizers w.self account pk (w.forecast account pk) := by
  rcases send_cases posted with ⟨-, sent⟩ | ⟨home, requested, sent⟩
  · rw [sent]
    exact List.foldl_append
  · rw [sent, forecast_withPending]
    by_cases here : receipt.receiverId = account
    · -- the calls on their way are to other accounts, so the new action is the last here
      have away := steady.hops_elsewhere pk
      rw [← home, here] at away
      rw [if_pos here, ← home, here, away, forecast, ← home, here, away, Receipt.replay,
        if_pos here, ← here, home, requested]
      rfl
    · rw [if_neg here, Receipt.replay, if_neg here]
      rfl

theorem Steady.send (steady : Steady original w) {receipt : Receipt}
    (posted : Posted w.self receipt)
    (foreign : ∀ target ∈ receipt.target w.authorizers w.self,
      (original target.1).get target.2 = none) : Steady original (w.send receipt) := by
  rcases send_cases posted with ⟨called, sent⟩ | ⟨-, requested, sent⟩
  · rw [sent]
    refine { steady with
      calls := fun receipt' inside => ?_
      underway := fun receipt' inside => ?_ }
    · rcases List.mem_append.mp inside with earlier | new
      · exact steady.calls receipt' earlier
      · rw [List.mem_singleton.mp new]
        exact called
    · rcases List.mem_append.mp inside with earlier | new
      · exact steady.underway receipt' earlier
      · rw [List.mem_singleton.mp new]
        exact foreign
  · rw [sent]
    refine steady.withPending fun action asked pk about => ?_
    rw [List.mem_singleton.mp asked] at about
    refine foreign (receipt.receiverId, pk) ?_
    rw [Receipt.target, requested, Option.bind_some, Option.mem_def.mp about]
    rfl

/-- All receipts of a call. -/
theorem Steady.sends (steady : Steady original w) {receipts : List Receipt}
    (posted : ∀ receipt ∈ receipts, Posted w.self receipt ∧
      ∀ target ∈ receipt.target w.authorizers w.self, (original target.1).get target.2 = none) :
    Steady original (receipts.foldl KeyWorld.send w) ∧
      (receipts.foldl KeyWorld.send w).machine = w.machine ∧
      ∀ account pk, (receipts.foldl KeyWorld.send w).forecast account pk =
        receipts.foldl (Receipt.replay w.authorizers w.self account pk)
          (w.forecast account pk) := by
  induction receipts generalizing w with
  | nil => exact ⟨steady, rfl, fun _ _ => rfl⟩
  | cons receipt receipts ih =>
      obtain ⟨first, foreign⟩ := posted receipt List.mem_cons_self
      have machine := machine_send first
      have authorizers := authorizers_send first
      have self : (w.send receipt).self = w.self := congrArg (·.host.currentAccountId) machine
      have later : ∀ receipt' ∈ receipts, Posted (w.send receipt).self receipt' ∧
          ∀ target ∈ receipt'.target (w.send receipt).authorizers (w.send receipt).self,
            (original target.1).get target.2 = none := by
        rw [authorizers, self]
        exact fun receipt' inside => posted receipt' (List.mem_cons_of_mem _ inside)
      obtain ⟨steady', machine', forecast⟩ := ih (steady.send first foreign) later
      refine ⟨steady', machine'.trans machine, fun account pk => ?_⟩
      rw [List.foldl_cons, forecast, authorizers, self, forecast_send steady first]
      rfl

/-! ## Key receipts -/

theorem receiver_addKeyReceipt (w : KeyWorld) (env : Env) (methodName : String)
    (pk : PublicKey) (allowanceYocto : Nat) :
    (w.machine.addKeyReceipt env methodName pk allowanceYocto).receiverId = w.holder := by
  unfold Machine.addKeyReceipt holder
  cases w.machine.contract.authorizerId <;> rfl

theorem receiver_deleteKeyReceipt (w : KeyWorld) (env : Env) (pk : PublicKey) :
    (w.machine.deleteKeyReceipt env pk).receiverId = w.holder := by
  unfold Machine.deleteKeyReceipt holder
  cases w.machine.contract.authorizerId <;> rfl

theorem posted_addKeyReceipt (w : KeyWorld) (env : Env) (methodName : String)
    (pk : PublicKey) (allowanceYocto : Nat) :
    Posted w.self (w.machine.addKeyReceipt env methodName pk allowanceYocto) := by
  unfold Machine.addKeyReceipt
  cases w.machine.contract.authorizerId with
  | some auth => exact .inl ⟨_, rfl⟩
  | none => exact .inr rfl

theorem posted_deleteKeyReceipt (w : KeyWorld) (env : Env) (pk : PublicKey) :
    Posted w.self (w.machine.deleteKeyReceipt env pk) := by
  unfold Machine.deleteKeyReceipt
  cases w.machine.contract.authorizerId with
  | some auth => exact .inl ⟨_, rfl⟩
  | none => exact .inr rfl

/-- Heard, a deletion comes out as asked for. -/
theorem requested_deleteKeyReceipt {env : Env} (heard : w.Heard env) (pk : PublicKey) :
    (w.machine.deleteKeyReceipt env pk).requested w.authorizers w.self = some (.deleteKey pk) := by
  unfold Machine.deleteKeyReceipt
  cases set : w.machine.contract.authorizerId with
  | none => rfl
  | some auth =>
      obtain ⟨away, signed, armed⟩ := heard auth set
      subst signed
      simp [Receipt.requested, Authorizer.answer, AuthorizerCall.decode, Authorizer.call,
        AuthorizerCall.payable, Authorizer.execute, Authorizer.deleteSessionKey,
        Authorizer.assertExtensionActingAsSelf, away, armed, require, bind, Except.bind,
        Except.map, KeyRing.creatable]

/-- Heard, a key with an allowance for one method is added as asked for. -/
theorem requested_addKeyReceipt {env : Env} (heard : w.Heard env) {methodName : String}
    (single : NamesOneMethod methodName) (pk : PublicKey) {allowanceYocto : Nat}
    (positive : 0 < allowanceYocto) :
    (w.machine.addKeyReceipt env methodName pk allowanceYocto).requested w.authorizers w.self =
      some (.addKey pk allowanceYocto w.self methodName) := by
  unfold Machine.addKeyReceipt
  cases set : w.machine.contract.authorizerId with
  | none => rfl
  | some auth =>
      obtain ⟨away, signed, armed⟩ := heard auth set
      subst signed
      simp [Receipt.requested, Authorizer.answer, AuthorizerCall.decode, Authorizer.call,
        AuthorizerCall.payable, Authorizer.execute, Authorizer.addSessionKey,
        Authorizer.assertExtensionActingAsSelf, away, armed, positive, require, bind, Except.bind,
        Except.map, KeyRing.creatable, single.split]
      rfl

/-- An addition is refused or comes out as asked for. -/
theorem requested_addKeyReceipt_cases (w : KeyWorld) (env : Env) (methodName : String)
    (pk : PublicKey) (allowanceYocto : Nat) :
    (w.machine.addKeyReceipt env methodName pk allowanceYocto).requested w.authorizers w.self =
        none ∨
      (w.machine.addKeyReceipt env methodName pk allowanceYocto).requested w.authorizers w.self =
        some (.addKey pk allowanceYocto w.self methodName) := by
  unfold Machine.addKeyReceipt
  cases w.machine.contract.authorizerId with
  | none => exact .inr rfl
  | some auth =>
      have decoded : AuthorizerCall.decode "add_session_key"
          (.addSessionKey pk allowanceYocto w.machine.host.currentAccountId methodName) =
        some (.addSessionKey pk allowanceYocto w.self methodName) := by
        rw [AuthorizerCall.decode, if_pos rfl]
        rfl
      simp only [Receipt.requested, Authorizer.answer, decoded]
      split
      · exact .inl rfl
      · split
        · rename_i a' action accepted
          rw [Authorizer.call_addSessionKey accepted]
          split
          · exact .inr rfl
          · exact .inl rfl
        · exact .inl rfl

end Rings

end KeyWorld

end SmartAccount
