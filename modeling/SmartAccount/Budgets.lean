import SmartAccount.Methods

/-!
# Budgets of delegated keys

A grant is stored under the text its owner enrolled the key with; a delegated call looks it
up under the text form of the signer's key.  From an enrolment to the next enrolment or
removal of the grant, its counter is the number of accepted calls the key signed, each of
them within what the grant allows, provided that the two texts are the same
(`budgets_of_canonical_keys`).  The SDK also parses other texts of a key, and a session
enrolled with one of those counts nothing (`session_of_other_text_counts_nothing`).
-/

namespace SmartAccount

open Foundation

/-! ## Accepted uses of a key -/

/-- An accepted `execute_trigger` signed by a key. -/
structure SessionUse where
  env : Env
  triggerId : String

/-- An accepted `proxy_call` signed by a key, with the receipts it sent. -/
structure ProxyUse where
  env : Env
  target : AccountId
  method : String
  args : Bytes
  sent : List Receipt

def Op.sessionUse (pk : PublicKey) (m : Machine) : Op → Option SessionUse
  | .transact env (.executeTrigger triggerId) =>
      match m.call env (.executeTrigger triggerId) with
      | .ok _ => if env.signerPk = pk then some ⟨env, triggerId⟩ else none
      | .error _ => none
  | _ => none

def Op.proxyUse (pk : PublicKey) (m : Machine) : Op → Option ProxyUse
  | .transact env (.proxyCall target method args) =>
      match m.call env (.proxyCall target method args) with
      | .ok m' =>
          if env.signerPk = pk then
            some ⟨env, target, method, args, m'.receipts.drop m.receipts.length⟩
          else none
      | .error _ => none
  | _ => none

namespace Machine

def sessionUses (pk : PublicKey) (m : Machine) (ops : List Op) : List SessionUse :=
  m.observe (Op.sessionUse pk) ops

def proxyUses (pk : PublicKey) (m : Machine) (ops : List Op) : List ProxyUse :=
  m.observe (Op.proxyUse pk) ops

end Machine

/-! ## The life of a grant -/

/-- An accepted `enroll_session` of this text. -/
def Op.enrollsSession (text : String) (m : Machine) : Op → Bool
  | .transact env (.enrollSession pk expires allowed maxFire allowance label) =>
      pk = text && (m.call env (.enrollSession pk expires allowed maxFire allowance label)).isOk
  | _ => false

/-- An accepted `enroll_proxy_key` of this text. -/
def Op.enrollsProxyKey (text : String) (m : Machine) : Op → Bool
  | .transact env
      (.enrollProxyKey pk expires targets methods attach maxGas maxCall allowance label) =>
      pk = text && (m.call env
        (.enrollProxyKey pk expires targets methods attach maxGas maxCall allowance label)).isOk
  | _ => false

namespace Machine

/-- The session grant is neither enrolled again nor removed in the run. -/
def KeepsSession (text : String) (m : Machine) : List Op → Prop
  | [] => True
  | op :: ops => op.enrollsSession text m = false ∧
      (m.step op).contract.sessionGrants.get text ≠ none ∧ KeepsSession text (m.step op) ops

/-- The proxy grant is neither enrolled again nor removed in the run. -/
def KeepsProxyKey (text : String) (m : Machine) : List Op → Prop
  | [] => True
  | op :: ops => op.enrollsProxyKey text m = false ∧
      (m.step op).contract.proxyGrants.get text ≠ none ∧ KeepsProxyKey text (m.step op) ops

/-! ## Sessions -/

/-- What an operation that keeps a session grant does to it. -/
inductive SessionStep (text : String) (m : Machine) (op : Op) : Prop
  | used (use : SessionUse) {grant : SessionGrant} (used : op.sessionUse text m = some use)
      (stored : m.contract.sessionGrants.get text = some grant)
      (inTime : use.env.now ≤ grant.expiresAtMs) (left : grant.fireCount < grant.maxFireCount)
      (allowed : grant.allowedTriggerIds.all (fun ids => use.triggerId ∈ ids) = true)
      (counted : (m.step op).contract.sessionGrants.get text = some (SessionGrant.fired grant)) :
      SessionStep text m op
  | idle (unused : op.sessionUse text m = none)
      (same : (m.step op).contract.sessionGrants.get text = m.contract.sessionGrants.get text) :
      SessionStep text m op

theorem SessionStep.of_same {text : String} {m m' : Machine} {op : Op}
    (unused : op.sessionUse text m = none) (stepped : m.step op = m')
    (same : m'.contract.sessionGrants = m.contract.sessionGrants) : SessionStep text m op :=
  .idle unused (by rw [stepped, same])

/-- What is left of a removal was there before. -/
theorem eq_of_removed {α : Type} {p : Prop} [Decidable p] {left before : Option α}
    (removed : left = if p then none else before) (kept : left ≠ none) : left = before := by
  by_cases gone : p
  · exact absurd (removed.trans (if_pos gone)) kept
  · exact removed.trans (if_neg gone)

theorem session_step {text : String} {m : Machine} {op : Op}
    (present : m.contract.sessionGrants.get text ≠ none)
    (apart : op.enrollsSession text m = false)
    (kept : (m.step op).contract.sessionGrants.get text ≠ none) : SessionStep text m op := by
  cases op with
  | timeout id => exact .of_same rfl rfl (Undisturbed.timeout m id).sessionGrants
  | abort id answer => exact .of_same rfl rfl (Undisturbed.abort m id answer).sessionGrants
  | deliver env id answer =>
      exact .of_same rfl rfl (Undisturbed.deliver env m id answer).sessionGrants
  | transact env method =>
      cases called : m.call env method with
      | error message =>
          refine .of_same ?_ (step_refused called) rfl
          cases method <;> simp only [Op.sessionUse]
          rw [called]
      | ok m' =>
          have stepped := step_transact called
          rw [stepped] at kept
          have effect := Effect.of_call called
          cases effect with
          | executeTrigger authorized stored undisturbed books contexts execution ran about nonce
              named =>
              rename_i triggerId trigger m₁
              cases authorized with
              | executor absent executor =>
                  refine .of_same ?_ stepped undisturbed.sessionGrants
                  have other : env.signerPk ≠ text := fun same => present (same ▸ absent)
                  simp only [Op.sessionUse, called, if_neg other]
              | session here inTime left allowed =>
                  rename_i grant
                  have after : m'.contract.sessionGrants =
                      m.contract.sessionGrants.insert env.signerPk (SessionGrant.fired grant) :=
                    undisturbed.sessionGrants
                  by_cases same : env.signerPk = text
                  · subst same
                    refine .used ⟨env, triggerId⟩ ?_ here inTime left allowed ?_
                    · simp only [Op.sessionUse, called, if_pos]
                    · rw [stepped, after, IterableMap.get_insert_self]
                  · refine .idle ?_ ?_
                    · simp only [Op.sessionUse, called, if_neg same]
                    · rw [stepped, after, IterableMap.get_insert_of_ne _ _ (Ne.symm same)]
          | enrollSession attached owner known funded =>
              rename_i pk expires maxFire allowance label allowed parsed
              have other : text ≠ pk := by
                rintro rfl
                simp [Op.enrollsSession, called, Except.isOk, Except.toBool] at apart
              refine .idle rfl ?_
              rw [stepped]
              exact IterableMap.get_insert_of_ne _ _ other
          | revokeSession owner stored known =>
              rename_i pk parsed
              refine .idle rfl ?_
              have removed := IterableMap.get_remove m.contract.sessionGrants pk text
              rw [stepped]
              exact eq_of_removed removed kept
          | revokeExpiredSessions =>
              refine .idle rfl ?_
              have after := congrArg ContractOf.sessionGrants (revokeExpiredSessions_eq env m).2.1
              have removed := (congrArg (fun grants => grants.get text) after).trans
                (IterableMap.get_removeAll _ _ text)
              rw [stepped]
              exact eq_of_removed removed kept
          | revokeExpiredProxyKeys =>
              exact .of_same rfl stepped (by rw [(revokeExpiredProxyKeys_eq env m).2.1])
          | pruneFinishedAutomationRuns =>
              exact .of_same rfl stepped (by rw [(pruneFinishedAutomationRuns_eq m).2.1])
          | executeSteps executor sequencing =>
              exact .of_same rfl stepped sequencing.sessionGrants
          | registerStep sequencing => exact .of_same rfl stepped sequencing.sessionGrants
          | runSequence executor sequencing =>
              exact .of_same rfl stepped sequencing.sessionGrants
          | _ => exact .of_same rfl stepped rfl

/-! ## Proxy keys -/

/-- What an operation that keeps a proxy grant does to it. -/
inductive ProxyStep (text : String) (m : Machine) (op : Op) : Prop
  | used (use : ProxyUse) {grant : ProxyGrant} (used : op.proxyUse text m = some use)
      (stored : m.contract.proxyGrants.get text = some grant)
      (inTime : use.env.now ≤ grant.expiresAtMs) (left : grant.callCount < grant.maxCallCount)
      (aimed : use.target ∈ grant.allowedTargets)
      (permitted : grant.allowedMethods.all (fun methods => use.method ∈ methods) = true)
      (sent : use.sent = [⟨use.target, use.env.signerId, .functionCall
        ⟨use.target, use.method, .raw use.args, grant.attachYocto, grant.maxGasTgas⟩⟩])
      (counted : (m.step op).contract.proxyGrants.get text = some (ProxyGrant.called grant)) :
      ProxyStep text m op
  | idle (unused : op.proxyUse text m = none)
      (same : (m.step op).contract.proxyGrants.get text = m.contract.proxyGrants.get text) :
      ProxyStep text m op

theorem ProxyStep.of_same {text : String} {m m' : Machine} {op : Op}
    (unused : op.proxyUse text m = none) (stepped : m.step op = m')
    (same : m'.contract.proxyGrants = m.contract.proxyGrants) : ProxyStep text m op :=
  .idle unused (by rw [stepped, same])

theorem proxy_step {text : String} {m : Machine} {op : Op}
    (apart : op.enrollsProxyKey text m = false)
    (kept : (m.step op).contract.proxyGrants.get text ≠ none) : ProxyStep text m op := by
  cases op with
  | timeout id => exact .of_same rfl rfl (Undisturbed.timeout m id).proxyGrants
  | abort id answer => exact .of_same rfl rfl (Undisturbed.abort m id answer).proxyGrants
  | deliver env id answer =>
      exact .of_same rfl rfl (Undisturbed.deliver env m id answer).proxyGrants
  | transact env method =>
      cases called : m.call env method with
      | error message =>
          refine .of_same ?_ (step_refused called) rfl
          cases method <;> simp only [Op.proxyUse]
          rw [called]
      | ok m' =>
          have stepped := step_transact called
          rw [stepped] at kept
          have effect := Effect.of_call called
          cases effect with
          | proxyCall stored inTime left aimed permitted =>
              rename_i target method args grant
              by_cases same : env.signerPk = text
              · subst same
                refine .used ⟨env, target, method, args, [⟨target, env.signerId, .functionCall
                  ⟨target, method, .raw args, grant.attachYocto, grant.maxGasTgas⟩⟩]⟩ ?_ stored
                  inTime left aimed permitted rfl ?_
                · simp only [Op.proxyUse, called, if_pos]
                  exact congrArg (fun sent => some (ProxyUse.mk env target method args sent))
                    (List.drop_left ..)
                · rw [stepped]
                  exact IterableMap.get_insert_self ..
              · refine .idle ?_ ?_
                · simp only [Op.proxyUse, called, if_neg same]
                · rw [stepped]
                  exact IterableMap.get_insert_of_ne _ _ (Ne.symm same)
          | enrollProxyKey attached owner known funded =>
              rename_i pk expires attach maxGas maxCall allowance targets methods label parsed
              have other : text ≠ pk := by
                rintro rfl
                simp [Op.enrollsProxyKey, called, Except.isOk, Except.toBool] at apart
              refine .idle rfl ?_
              rw [stepped]
              exact IterableMap.get_insert_of_ne _ _ other
          | revokeProxyKey owner stored known =>
              rename_i pk parsed
              refine .idle rfl ?_
              have removed := IterableMap.get_remove m.contract.proxyGrants pk text
              rw [stepped]
              exact eq_of_removed removed kept
          | revokeExpiredProxyKeys =>
              refine .idle rfl ?_
              have after := congrArg ContractOf.proxyGrants (revokeExpiredProxyKeys_eq env m).2.1
              have removed := (congrArg (fun grants => grants.get text) after).trans
                (IterableMap.get_removeAll _ _ text)
              rw [stepped]
              exact eq_of_removed removed kept
          | revokeExpiredSessions =>
              exact .of_same rfl stepped (by rw [(revokeExpiredSessions_eq env m).2.1])
          | pruneFinishedAutomationRuns =>
              exact .of_same rfl stepped (by rw [(pruneFinishedAutomationRuns_eq m).2.1])
          | executeTrigger authorized stored undisturbed =>
              refine .of_same rfl stepped (undisturbed.proxyGrants.trans ?_)
              cases authorized <;> rfl
          | executeSteps executor sequencing => exact .of_same rfl stepped sequencing.proxyGrants
          | registerStep sequencing => exact .of_same rfl stepped sequencing.proxyGrants
          | runSequence executor sequencing => exact .of_same rfl stepped sequencing.proxyGrants
          | _ => exact .of_same rfl stepped rfl

/-! ## Runs -/

/-- What a key has used of a session grant since the grant was as given. -/
structure SessionBudget (m : Machine) (text : String) (grant : SessionGrant)
    (uses : List SessionUse) : Prop where
  counted : m.contract.sessionGrants.get text =
    some { grant with fireCount := grant.fireCount + uses.length }
  bounded : grant.fireCount + uses.length ≤ grant.maxFireCount
  within : ∀ use ∈ uses, use.env.now ≤ grant.expiresAtMs ∧
    grant.allowedTriggerIds.all (fun ids => use.triggerId ∈ ids) = true

/-- The receipt that a use of the proxy grant sends. -/
def ProxyGrant.receipt (grant : ProxyGrant) (use : ProxyUse) : Receipt :=
  ⟨use.target, use.env.signerId, .functionCall
    ⟨use.target, use.method, .raw use.args, grant.attachYocto, grant.maxGasTgas⟩⟩

/-- What a key has used of a proxy grant since the grant was as given. -/
structure ProxyBudget (m : Machine) (text : String) (grant : ProxyGrant)
    (uses : List ProxyUse) : Prop where
  counted : m.contract.proxyGrants.get text =
    some { grant with callCount := grant.callCount + uses.length }
  bounded : grant.callCount + uses.length ≤ grant.maxCallCount
  within : ∀ use ∈ uses, use.env.now ≤ grant.expiresAtMs ∧ use.target ∈ grant.allowedTargets ∧
    grant.allowedMethods.all (fun methods => use.method ∈ methods) = true ∧
    use.sent = [ProxyGrant.receipt grant use]

theorem session_run {text : String} {ops : List Op} {m : Machine} {grant : SessionGrant}
    (stored : m.contract.sessionGrants.get text = some grant)
    (within : grant.fireCount ≤ grant.maxFireCount) (kept : m.KeepsSession text ops) :
    SessionBudget (m.run ops) text grant (m.sessionUses text ops) := by
  induction ops generalizing m grant with
  | nil => exact ⟨stored, within, fun use inside => absurd inside List.not_mem_nil⟩
  | cons op ops ih =>
      obtain ⟨apart, present, later⟩ := kept
      have here : m.contract.sessionGrants.get text ≠ none := by
        rw [stored]
        exact Option.some_ne_none _
      cases session_step here apart present with
      | used use used there inTime left allowed counted =>
          rw [stored, Option.some.injEq] at there
          subst there
          have budget := ih counted left later
          have listed : m.sessionUses text (op :: ops) =
              use :: (m.step op).sessionUses text ops := by
            rw [sessionUses, observe, used]
            rfl
          have total : grant.fireCount + (use :: (m.step op).sessionUses text ops).length =
              (SessionGrant.fired grant).fireCount +
                ((m.step op).sessionUses text ops).length := by
            simp only [List.length_cons, SessionGrant.fired]
            omega
          rw [listed]
          refine ⟨?_, ?_, List.forall_mem_cons.mpr ⟨⟨inTime, allowed⟩, budget.within⟩⟩
          · rw [total]
            exact budget.counted
          · rw [total]
            exact budget.bounded
      | idle unused same =>
          have listed : m.sessionUses text (op :: ops) = (m.step op).sessionUses text ops := by
            rw [sessionUses, observe, unused]
            rfl
          rw [listed]
          exact ih (same.trans stored) within later

theorem proxy_run {text : String} {ops : List Op} {m : Machine} {grant : ProxyGrant}
    (stored : m.contract.proxyGrants.get text = some grant)
    (within : grant.callCount ≤ grant.maxCallCount) (kept : m.KeepsProxyKey text ops) :
    ProxyBudget (m.run ops) text grant (m.proxyUses text ops) := by
  induction ops generalizing m grant with
  | nil => exact ⟨stored, within, fun use inside => absurd inside List.not_mem_nil⟩
  | cons op ops ih =>
      obtain ⟨apart, present, later⟩ := kept
      cases proxy_step apart present with
      | used use used there inTime left aimed permitted sent counted =>
          rw [stored, Option.some.injEq] at there
          subst there
          have budget := ih counted left later
          have listed : m.proxyUses text (op :: ops) =
              use :: (m.step op).proxyUses text ops := by
            rw [proxyUses, observe, used]
            rfl
          have total : grant.callCount + (use :: (m.step op).proxyUses text ops).length =
              (ProxyGrant.called grant).callCount +
                ((m.step op).proxyUses text ops).length := by
            simp only [List.length_cons, ProxyGrant.called]
            omega
          rw [listed]
          refine ⟨?_, ?_, List.forall_mem_cons.mpr
            ⟨⟨inTime, aimed, permitted, sent⟩, budget.within⟩⟩
          · rw [total]
            exact budget.counted
          · rw [total]
            exact budget.bounded
      | idle unused same =>
          have listed : m.proxyUses text (op :: ops) = (m.step op).proxyUses text ops := by
            rw [proxyUses, observe, unused]
            rfl
          rw [listed]
          exact ih (same.trans stored) within later

/-- The deposit a receipt carries. -/
def depositOf (receipt : Receipt) : Nat :=
  match receipt.action with
  | .functionCall fc => fc.depositYocto
  | _ => 0

/-- The deposits of all calls sent under a proxy grant stay below its cap. -/
theorem ProxyBudget.spent {m : Machine} {text : String} {grant : ProxyGrant}
    {uses : List ProxyUse} (budget : ProxyBudget m text grant uses) :
    ((uses.flatMap ProxyUse.sent).map depositOf).sum ≤ grant.maxCallCount * grant.attachYocto := by
  have total : ((uses.flatMap ProxyUse.sent).map depositOf).sum =
      uses.length * grant.attachYocto := by
    have each := fun use inside => (budget.within use inside).2.2.2
    clear budget
    induction uses with
    | nil => simp
    | cons use uses ih =>
        obtain ⟨first, rest⟩ := List.forall_mem_cons.mp each
        rw [List.flatMap_cons, List.map_append, List.sum_append, ih rest, first,
          List.length_cons, Nat.succ_mul, Nat.add_comm]
        rfl
  rw [total]
  have bounded := budget.bounded
  exact Nat.mul_le_mul_right _ (by omega)

end Machine

/-! ## Budgets -/

/-- From every accepted enrolment of the text to the next enrolment or removal of its grant,
the session grant counts the accepted fires that the key signed, and keeps them in bounds. -/
def SessionBudgeted (m : Machine) (text : String) (pk : PublicKey) : Prop :=
  ∀ env expires allowed maxFire allowance label m₀ ops,
    m.call env (.enrollSession text expires allowed maxFire allowance label) = .ok m₀ →
    m₀.KeepsSession text ops →
    Machine.SessionBudget (m₀.run ops) text ⟨text, env.now, expires, allowed, maxFire, 0, label⟩
      (m₀.sessionUses pk ops)

/-- From every accepted enrolment of the text to the next enrolment or removal of its grant,
the proxy grant counts the accepted calls that the key signed, keeps them in bounds, and
caps the deposit they carry. -/
def ProxyBudgeted (m : Machine) (text : String) (pk : PublicKey) : Prop :=
  ∀ env expires targets methods attach maxGas maxCall allowance label m₀ ops,
    m.call env
      (.enrollProxyKey text expires targets methods attach maxGas maxCall allowance label) =
        .ok m₀ →
    m₀.KeepsProxyKey text ops →
    Machine.ProxyBudget (m₀.run ops) text
        ⟨text, env.now, expires, targets, methods, attach, maxGas, maxCall, 0, label⟩
        (m₀.proxyUses pk ops) ∧
      (((m₀.proxyUses pk ops).flatMap ProxyUse.sent).map Machine.depositOf).sum ≤
        maxCall * attach

/-- The text is the one in which the host reports the key it parses to. -/
structure CanonicalText (host : Host) (text : String) (pk : PublicKey) : Prop where
  parses : host.parsePublicKey text = some pk
  same : text = pk

/-- A key enrolled by its canonical text stays within its budget, as a session key and as a
proxy key. -/
theorem budgets_of_canonical_keys {m : Machine} {text : String} {pk : PublicKey}
    (canonical : CanonicalText m.host text pk) :
    SessionBudgeted m text pk ∧ ProxyBudgeted m text pk := by
  have same := canonical.same
  subst same
  constructor
  · intro env expires allowed maxFire allowance label m₀ ops enrolled kept
    have stored : m₀.contract.sessionGrants.get text =
        some ⟨text, env.now, expires, allowed, maxFire, 0, label⟩ := by
      cases Machine.Effect.of_call enrolled
      exact IterableMap.get_insert_self ..
    exact Machine.session_run stored (Nat.zero_le _) kept
  · intro env expires targets methods attach maxGas maxCall allowance label m₀ ops enrolled kept
    have stored : m₀.contract.proxyGrants.get text =
        some ⟨text, env.now, expires, targets, methods, attach, maxGas, maxCall, 0, label⟩ := by
      cases Machine.Effect.of_call enrolled
      exact IterableMap.get_insert_self ..
    have budget := Machine.proxy_run stored (Nat.zero_le _) kept
    exact ⟨budget, budget.spent⟩

/-! ## Texts of keys -/

/-- A public key of Alice's, without and with its curve. -/
def bareKey : String := "6E8sCci9badyRkXb3JoRpBj5p8C6Tw41ELDZoiihKEtp"

def prefixedKey : PublicKey := "ed25519:6E8sCci9badyRkXb3JoRpBj5p8C6Tw41ELDZoiihKEtp"

/-- The two texts of Alice's key both parse to it. -/
def keyHost : Host where
  currentAccountId := alice
  parsePublicKey text := if text = bareKey ∨ text = prefixedKey then some prefixedKey else none

/-- Alice's deployment with a plan and a trigger for it. -/
def keyed : Machine :=
  (Machine.init keyHost alice none).run
    [.transact aliceEnv (.saveSequenceTemplate "plan" [plainStep "a"]),
      .transact aliceEnv (.createBalanceTrigger "daily" "plan" 0 5)]

/-- Alice, attaching the deposit that an enrolment asks for. -/
def payingEnv : Env := { aliceEnv with attachedDeposit := 1 }

/-- Alice's account, acting through the delegated key. -/
def delegatedEnv : Env := { aliceEnv with signerPk := prefixedKey }

/-- Alice enrols a session key for at most three fires, by this text. -/
def sessionEnrolment (text : String) : Op :=
  .transact payingEnv (.enrollSession text 10 none 3 1 none)

/-- Alice enrols a proxy key for at most two calls of the market, by this text. -/
def proxyEnrolment (text : String) : Op :=
  .transact payingEnv (.enrollProxyKey text 10 [market] none 5 30 2 1 none)

/-- The delegated key fires the trigger. -/
def delegatedFire : Op := .transact delegatedEnv (.executeTrigger "daily")

/-- The delegated key calls the market. -/
def delegatedCall : Op := .transact delegatedEnv (.proxyCall market "trade" [])

/-- One fire of a session key and one call of a proxy key, both enrolled by the canonical
text. -/
theorem budgets_of_canonical_keys_used_once :
    Machine.SessionBudget ((keyed.step (sessionEnrolment prefixedKey)).run [delegatedFire])
        prefixedKey ⟨prefixedKey, 0, 10, none, 3, 0, none⟩
        ((keyed.step (sessionEnrolment prefixedKey)).sessionUses prefixedKey [delegatedFire]) ∧
      Machine.ProxyBudget ((keyed.step (proxyEnrolment prefixedKey)).run [delegatedCall])
        prefixedKey ⟨prefixedKey, 0, 10, [market], none, 5, 30, 2, 0, none⟩
        ((keyed.step (proxyEnrolment prefixedKey)).proxyUses prefixedKey [delegatedCall]) := by
  have canonical : CanonicalText keyed.host prefixedKey prefixedKey :=
    ⟨by decide, rfl⟩
  obtain ⟨sessions, proxies⟩ := budgets_of_canonical_keys canonical
  refine ⟨sessions payingEnv 10 none 3 1 none _ [delegatedFire]
      (Machine.call_of_isOk (by decide)) ⟨rfl, by decide, trivial⟩,
    (proxies payingEnv 10 [market] none 5 30 2 1 none _ [delegatedCall]
      (Machine.call_of_isOk (by decide)) ⟨rfl, by decide, trivial⟩).1⟩

/-- Enrolled by its bare text, the key fires the trigger without a grant of its own, as the
owner's account, and the grant counts nothing. -/
theorem session_of_other_text_counts_nothing :
    ¬ ∀ (m : Machine) (text : String) (pk : PublicKey), m.Reachable →
      m.host.parsePublicKey text = some pk → SessionBudgeted m text pk ∧ ProxyBudgeted m text pk := by
  intro claim
  have reachable : keyed.Reachable := (Machine.Reachable.init keyHost alice none).run _
  have sessions := (claim keyed bareKey prefixedKey reachable (by decide)).1
  have budget := sessions payingEnv 10 none 3 1 none _ [delegatedFire]
    (Machine.call_of_isOk (by decide)) ⟨rfl, by decide, trivial⟩
  have counted := budget.counted
  revert counted
  decide

end SmartAccount
