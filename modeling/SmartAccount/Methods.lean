import SmartAccount.Ledger

/-!
# What each public method does

`Effect` inverts an accepted call method by method: its guards, and what it leaves of the
root record, the books of automation and the outgoing receipts.  The sequencer, called by a
method or by a callback, writes no settings and sends no receipt (`Undisturbed`).
-/

namespace SmartAccount

open Foundation

/-! ## Settings -/

/-- The fields of the root record that no callback writes. -/
structure Settings where
  ownerId : AccountId
  authorizedExecutor : Option AccountId
  sequenceTemplates : IterableMap String SequenceTemplate
  sessionGrants : IterableMap String SessionGrant
  authorizerId : Option AccountId
  proxyGrants : IterableMap String ProxyGrant

def Contract.settings (c : Contract) : Settings where
  ownerId := c.ownerId
  authorizedExecutor := c.authorizedExecutor
  sequenceTemplates := c.sequenceTemplates
  sessionGrants := c.sessionGrants
  authorizerId := c.authorizerId
  proxyGrants := c.proxyGrants

structure Undisturbed (m m' : Machine) : Prop where
  host : m'.host = m.host
  settings : m'.contract.settings = m.contract.settings
  receipts : m'.receipts = m.receipts

namespace Undisturbed

theorem refl (m : Machine) : Undisturbed m m := ⟨rfl, rfl, rfl⟩

theorem trans {m₁ m₂ m₃ : Machine} (first : Undisturbed m₁ m₂) (second : Undisturbed m₂ m₃) :
    Undisturbed m₁ m₃ where
  host := second.host.trans first.host
  settings := second.settings.trans first.settings
  receipts := second.receipts.trans first.receipts

section Fields

variable {m m' : Machine} (undisturbed : Undisturbed m m')

include undisturbed

theorem ownerId : m'.contract.ownerId = m.contract.ownerId :=
  congrArg Settings.ownerId undisturbed.settings

theorem authorizedExecutor : m'.contract.authorizedExecutor = m.contract.authorizedExecutor :=
  congrArg Settings.authorizedExecutor undisturbed.settings

theorem sequenceTemplates : m'.contract.sequenceTemplates = m.contract.sequenceTemplates :=
  congrArg Settings.sequenceTemplates undisturbed.settings

theorem sessionGrants : m'.contract.sessionGrants = m.contract.sessionGrants :=
  congrArg Settings.sessionGrants undisturbed.settings

theorem authorizerId : m'.contract.authorizerId = m.contract.authorizerId :=
  congrArg Settings.authorizerId undisturbed.settings

theorem proxyGrants : m'.contract.proxyGrants = m.contract.proxyGrants :=
  congrArg Settings.proxyGrants undisturbed.settings

end Fields

theorem resumeYield {m m' : Machine} {yieldId : YieldId}
    (resumed : m.resumeYield yieldId = some m') : Undisturbed m m' := by
  obtain ⟨thens, -, rfl⟩ := Machine.resumeYield_eq_some.mp resumed
  exact ⟨rfl, rfl, rfl⟩

theorem of_write {ns : String} {m m' : Machine} (write : Write ns m m') : Undisturbed m m' := by
  cases write with
  | resume stored resumed => exact resumeYield resumed
  | _ => exact ⟨rfl, rfl, rfl⟩

theorem of_writes {ns : String} {m m' : Machine} (writes : Writes ns m m') :
    Undisturbed m m' := by
  induction writes with
  | refl => exact refl m
  | tail _ last ih => exact ih.trans (of_write last)

theorem registerSteps {env : Env} {m m' : Machine} {ns : String} {calls : List Step}
    (registered : m.registerSteps env ns calls = .ok m') : Undisturbed m m' := by
  induction calls generalizing m with
  | nil => exact Machine.registerSteps_nil.mp registered ▸ refl m
  | cons call calls ih =>
      have first : Undisturbed m (m.withRegistered env ns call) := ⟨rfl, rfl, rfl⟩
      exact first.trans (ih (Machine.registerSteps_cons.mp registered).2)

theorem startSequenceRelease {m m' : Machine} {ns : String} {order : List String} {n : Nat}
    (released : m.startSequenceReleaseInNamespace ns order = .ok (m', n)) : Undisturbed m m' :=
  of_writes (Machine.startSequenceRelease_writes released)

theorem runThen (env : Env) (m : Machine) (id : Nat) (t : Then) (rest : List Then)
    (result : PromiseResult) : Undisturbed m (m.runThen env id t rest result) := by
  have delivered : Undisturbed m ({ m with executing := some id }.note
      (.delivered id t.callback result)) := ⟨rfl, rfl, rfl⟩
  unfold Machine.runThen
  split
  · rename_i panic _
    rw [m.rollBack_eq id t result panic]
    exact ⟨rfl, rfl, rfl⟩
  · rename_i m' bytes attempted
    have writes := Writes.runCallback (Machine.attempt_ok.mp attempted).1
    exact (delivered.trans (of_writes writes)).trans ⟨rfl, rfl, rfl⟩
  · rename_i m' p attempted
    have writes := Writes.runCallback (Machine.attempt_ok.mp attempted).1
    exact (delivered.trans (of_writes writes)).trans ⟨rfl, rfl, rfl⟩

theorem deliver (env : Env) (m : Machine) (id : Nat) (answer : PromiseResult) :
    Undisturbed m (m.deliver env id answer) := by
  rcases m.deliver_cases env id answer with same | ⟨head, t, rest, result, -, -, ran⟩
  · rw [same]
    exact refl m
  · rw [ran]
    exact runThen env m id t rest result

theorem abort (m : Machine) (id : Nat) (answer : PromiseResult) :
    Undisturbed m (m.abort id answer) := by
  rcases m.abort_cases id answer with same | ⟨head, t, rest, result, panic, -, -, -, ended⟩
  · rw [same]
    exact refl m
  · rw [ended, m.rollBack_eq]
    exact ⟨rfl, rfl, rfl⟩

theorem timeout (m : Machine) (id : Nat) : Undisturbed m (m.timeout id) := by
  unfold Machine.timeout
  split <;> exact ⟨rfl, rfl, rfl⟩

end Undisturbed

/-! ## The contract under callbacks -/

/-- A delivery leaves the contract as it was, or as one callback of the flight leaves it. -/
theorem Machine.deliver_contract (env : Env) (m : Machine) (id : Nat) (answer : PromiseResult) :
    (m.deliver env id answer).contract = m.contract ∨
      ∃ head t rest result m₁ out, m.pool.get id = some ⟨head, t :: rest⟩ ∧
        ({ m with executing := some id }.note (.delivered id t.callback result)).runCallback env
          t.callback result = .ok (m₁, out) ∧
        (m.deliver env id answer).contract = m₁.contract := by
  rcases m.deliver_cases env id answer with same | ⟨head, t, rest, result, stored, -, ran⟩
  · exact .inl (by rw [same])
  · rw [ran]
    unfold Machine.runThen
    split
    · rename_i panic _
      have kept := congrArg Machine.contract (m.rollBack_eq id t result panic)
      exact .inl kept
    · rename_i m₁ bytes attempted
      exact .inr ⟨head, t, rest, result, m₁, _, stored, (Machine.attempt_ok.mp attempted).1, rfl⟩
    · rename_i m₁ p attempted
      exact .inr ⟨head, t, rest, result, m₁, _, stored, (Machine.attempt_ok.mp attempted).1, rfl⟩

/-- What every write of a callback does to the contract, a delivery does. -/
theorem Machine.deliver_related {R : Contract → Contract → Prop} (refl : ∀ c, R c c)
    (trans : ∀ c₁ c₂ c₃, R c₁ c₂ → R c₂ c₃ → R c₁ c₃)
    (write : ∀ ns m m', Write ns m m' → R m.contract m'.contract) (env : Env) (m : Machine)
    (id : Nat) (answer : PromiseResult) : R m.contract (m.deliver env id answer).contract := by
  have writes : ∀ ns m m', Writes ns m m' → R m.contract m'.contract := by
    intro ns m m' writes
    induction writes with
    | refl => exact refl _
    | tail _ last ih => exact trans _ _ _ ih (write ns _ _ last)
  rcases m.deliver_contract env id answer with same | ⟨_, t, _, result, m₁, out, _, ran, after⟩
  · rw [same]
    exact refl _
  · rw [after]
    have written := writes _ _ _ (Writes.runCallback ran)
    exact written

/-- What closing a run leaves alone in a trigger, callbacks leave alone in every trigger. -/
theorem Machine.deliver_triggers {α : Type} {f : BalanceTrigger → α}
    (ignores : ∀ env trigger status, f (Machine.finishedTrigger env trigger status) = f trigger)
    (env : Env) (m : Machine) (id : Nat) (answer : PromiseResult) (triggerId : String) :
    ((m.deliver env id answer).contract.balanceTriggers.get triggerId).map f =
      (m.contract.balanceTriggers.get triggerId).map f := by
  refine @Machine.deliver_related (fun c c' => (c'.balanceTriggers.get triggerId).map f =
    (c.balanceTriggers.get triggerId).map f) (fun _ => rfl) (fun _ _ _ first second =>
      second.trans first) (fun ns m m' write => ?_) env m id answer
  cases write with
  | resume stored resumed =>
      obtain ⟨thens, -, rfl⟩ := Machine.resumeYield_eq_some.mp resumed
      rfl
  | finishRun stored running closing =>
      rename_i env run status failedStepId
      have booked := congrFun (congrArg Books.triggers
        (books_recordRunFinished env m ns run status failedStepId)) triggerId
      show (_ : Option BalanceTrigger).map f = _
      refine (congrArg (Option.map f) booked).trans ?_
      simp only [Books.finish, Function.update_apply]
      split
      · rename_i same
        subst same
        show ((m.contract.balanceTriggers.get run.triggerId).map _).map f = _
        rw [Option.map_map]
        exact congrArg (fun g => Option.map g _) (funext fun trigger => ignores env trigger status)
      · rfl
  | _ => rfl

/-- The sequencer at work in a transaction: the books and the saved results are left alone
as well. -/
structure Sequencing (m m' : Machine) : Prop extends Undisturbed m m' where
  books : m'.contract.books = m.contract.books
  contexts : m'.contract.sequenceContexts = m.contract.sequenceContexts

theorem Machine.registerSteps_contexts {env : Env} {m m' : Machine} {ns : String}
    {calls : List Step} (registered : m.registerSteps env ns calls = .ok m') :
    m'.contract.sequenceContexts = m.contract.sequenceContexts := by
  induction calls generalizing m with
  | nil => rw [registerSteps_nil.mp registered]
  | cons call calls ih => exact (ih (registerSteps_cons.mp registered).2).trans rfl

theorem Machine.startSequenceRelease_contexts {m m' : Machine} {ns : String}
    {order : List String} {n : Nat}
    (released : m.startSequenceReleaseInNamespace ns order = .ok (m', n)) :
    m'.contract.sequenceContexts = m.contract.sequenceContexts := by
  obtain ⟨first, rest, resumed, rfl, -, -, woken, rfl, -⟩ := startSequenceRelease_ok released
  obtain ⟨yielded, m₁, -, taken, rfl⟩ := resumeRegisteredStep_ok.mp woken
  obtain ⟨thens, -, rfl⟩ := resumeYield_eq_some.mp taken
  show (m.withQueued ns rest).contract.sequenceContexts = _
  unfold withQueued
  split <;> rfl

theorem Sequencing.of_release {env : Env} {m m₁ m' : Machine} {ns : String} {calls : List Step}
    {order : List String} {n : Nat} (registered : m.registerSteps env ns calls = .ok m₁)
    (released : m₁.startSequenceReleaseInNamespace ns order = .ok (m', n)) : Sequencing m m' where
  toUndisturbed := (Undisturbed.registerSteps registered).trans (.startSequenceRelease released)
  books := (Machine.startSequenceRelease_books released).trans
    (Machine.registerSteps_books registered)
  contexts := (Machine.startSequenceRelease_contexts released).trans
    (Machine.registerSteps_contexts registered)

namespace Machine

/-! ## Key receipts -/

/-- The receipt that mints an access key. -/
def addKeyReceipt (env : Env) (m : Machine) (methodName : String) (parsedPk : PublicKey)
    (allowanceYocto : Nat) : Receipt :=
  match m.contract.authorizerId with
  | some auth => ⟨auth, env.signerId, .functionCall ⟨auth, "add_session_key",
      .addSessionKey parsedPk allowanceYocto m.host.currentAccountId methodName, 0,
      sessionKeyAuthorizerHopGasTgas⟩⟩
  | none => ⟨m.host.currentAccountId, env.signerId,
      .addKey parsedPk allowanceYocto m.host.currentAccountId methodName⟩

/-- The receipt that deletes an access key. -/
def deleteKeyReceipt (env : Env) (m : Machine) (parsedPk : PublicKey) : Receipt :=
  match m.contract.authorizerId with
  | some auth => ⟨auth, env.signerId, .functionCall ⟨auth, "delete_session_key",
      .deleteSessionKey parsedPk, 0, sessionKeyAuthorizerHopGasTgas⟩⟩
  | none => ⟨m.host.currentAccountId, env.signerId, .deleteKey parsedPk⟩

theorem addKeyPromise_ok {env : Env} {m m' : Machine} {methodName : String}
    {parsedPk : PublicKey} {allowanceYocto : Nat}
    (sent : m.addKeyPromise env methodName parsedPk allowanceYocto = .ok m') :
    (m.contract.authorizerId = none → 0 < allowanceYocto) ∧
      m' = { m with
        receipts := m.receipts ++ [m.addKeyReceipt env methodName parsedPk allowanceYocto] } := by
  unfold addKeyPromise at sent
  unfold addKeyReceipt
  cases set : m.contract.authorizerId with
  | some auth =>
      rw [set] at sent
      cases sent
      refine ⟨fun unset => ?_, rfl⟩
      cases unset
  | none =>
      rw [set] at sent
      simp only [bind_eq_ok, require_eq_ok, decide_eq_true_eq] at sent
      obtain ⟨-, positive, eq⟩ := sent
      cases eq
      exact ⟨fun _ => positive, rfl⟩

theorem deleteKeyPromise_eq (env : Env) (m : Machine) (parsedPk : PublicKey) :
    m.deleteKeyPromise env parsedPk =
      { m with receipts := m.receipts ++ [m.deleteKeyReceipt env parsedPk] } := by
  unfold deleteKeyPromise deleteKeyReceipt
  cases m.contract.authorizerId <;> rfl

/-! ## Expiry loops -/

/-- The key receipts of an expiry loop. -/
def expiryReceipts (env : Env) (m : Machine) (expired : List String) : List Receipt :=
  (expired.filterMap m.host.parsePublicKey).map (m.deleteKeyReceipt env)

/-- A loop that drops one grant and sends at most its key receipt in each pass. -/
theorem foldl_expiry {env : Env} {pass : Machine → String → Machine}
    {drop : Contract → String → Contract}
    (authorizer : ∀ c pk, (drop c pk).authorizerId = c.authorizerId)
    (one : ∀ m pk, (pass m pk).host = m.host ∧ (pass m pk).contract = drop m.contract pk ∧
      (pass m pk).receipts = m.receipts ++ m.expiryReceipts env [pk])
    (pks : List String) (m : Machine) :
    (pks.foldl pass m).host = m.host ∧ (pks.foldl pass m).contract = pks.foldl drop m.contract ∧
      (pks.foldl pass m).receipts = m.receipts ++ m.expiryReceipts env pks := by
  induction pks generalizing m with
  | nil => exact ⟨rfl, rfl, (List.append_nil _).symm⟩
  | cons pk pks ih =>
      obtain ⟨host, contract, receipts⟩ := one m pk
      obtain ⟨host', contract', receipts'⟩ := ih (pass m pk)
      have same : (pass m pk).deleteKeyReceipt env = m.deleteKeyReceipt env := by
        funext parsed
        unfold deleteKeyReceipt
        rw [contract, authorizer, host]
      refine ⟨host'.trans host, contract'.trans (contract ▸ rfl), ?_⟩
      rw [List.foldl_cons, receipts', receipts]
      unfold expiryReceipts
      rw [same, host, List.append_assoc, ← List.map_append, ← List.filterMap_append,
        List.singleton_append]

theorem revokeExpiredSession_eq (env : Env) (m : Machine) (pk : String) :
    (m.revokeExpiredSession env pk).host = m.host ∧
      (m.revokeExpiredSession env pk).contract =
        { m.contract with sessionGrants := m.contract.sessionGrants.remove pk } ∧
      (m.revokeExpiredSession env pk).receipts = m.receipts ++ m.expiryReceipts env [pk] := by
  unfold revokeExpiredSession expiryReceipts
  simp only [buildSessionDeleteKeyPromise, deleteKeyPromise_eq, List.filterMap_cons,
    List.filterMap_nil, setSessionGrants, withContract]
  split
  · rename_i parsed eq
    rw [eq]
    exact ⟨rfl, rfl, rfl⟩
  · rename_i eq
    rw [eq]
    exact ⟨rfl, rfl, (List.append_nil _).symm⟩

theorem revokeExpiredProxyKey_eq (env : Env) (m : Machine) (pk : String) :
    (m.revokeExpiredProxyKey env pk).host = m.host ∧
      (m.revokeExpiredProxyKey env pk).contract =
        { m.contract with proxyGrants := m.contract.proxyGrants.remove pk } ∧
      (m.revokeExpiredProxyKey env pk).receipts = m.receipts ++ m.expiryReceipts env [pk] := by
  unfold revokeExpiredProxyKey expiryReceipts
  simp only [buildProxyDeleteKeyPromise, deleteKeyPromise_eq, List.filterMap_cons,
    List.filterMap_nil, setProxyGrants, withContract]
  split
  · rename_i parsed eq
    rw [eq]
    exact ⟨rfl, rfl, rfl⟩
  · rename_i eq
    rw [eq]
    exact ⟨rfl, rfl, (List.append_nil _).symm⟩

theorem revokeExpiredSessions_eq (env : Env) (m : Machine) :
    (m.revokeExpiredSessions env).1.host = m.host ∧
      (m.revokeExpiredSessions env).1.contract = { m.contract with
        sessionGrants := m.contract.sessionGrants.removeAll (expiredSessions env m.contract) } ∧
      (m.revokeExpiredSessions env).1.receipts =
        m.receipts ++ m.expiryReceipts env (expiredSessions env m.contract) := by
  obtain ⟨host, contract, receipts⟩ :=
    @foldl_expiry env (revokeExpiredSession env)
      (fun c pk => { c with sessionGrants := c.sessionGrants.remove pk })
      (fun _ _ => rfl) (revokeExpiredSession_eq env) (expiredSessions env m.contract) m
  refine ⟨host, contract.trans ?_, receipts⟩
  generalize expiredSessions env m.contract = pks
  generalize m.contract = c
  induction pks generalizing c with
  | nil => rfl
  | cons pk pks ih => exact ih _

theorem revokeExpiredProxyKeys_eq (env : Env) (m : Machine) :
    (m.revokeExpiredProxyKeys env).1.host = m.host ∧
      (m.revokeExpiredProxyKeys env).1.contract = { m.contract with
        proxyGrants := m.contract.proxyGrants.removeAll (expiredProxyKeys env m.contract) } ∧
      (m.revokeExpiredProxyKeys env).1.receipts =
        m.receipts ++ m.expiryReceipts env (expiredProxyKeys env m.contract) := by
  obtain ⟨host, contract, receipts⟩ :=
    @foldl_expiry env (revokeExpiredProxyKey env)
      (fun c pk => { c with proxyGrants := c.proxyGrants.remove pk })
      (fun _ _ => rfl) (revokeExpiredProxyKey_eq env) (expiredProxyKeys env m.contract) m
  refine ⟨host, contract.trans ?_, receipts⟩
  generalize expiredProxyKeys env m.contract = pks
  generalize m.contract = c
  induction pks generalizing c with
  | nil => rfl
  | cons pk pks ih => exact ih _

theorem pruneFinishedAutomationRuns_eq (m : Machine) :
    m.pruneFinishedAutomationRuns.1.host = m.host ∧
      m.pruneFinishedAutomationRuns.1.contract = { m.contract with
        automationRuns := m.contract.automationRuns.removeAll (terminalRuns m.contract) } ∧
      m.pruneFinishedAutomationRuns.1.receipts = m.receipts := by
  unfold pruneFinishedAutomationRuns
  simp only
  split
  · rename_i none
    rw [none]
    exact ⟨rfl, rfl, rfl⟩
  · exact ⟨rfl, rfl, rfl⟩

/-! ## Authorization of a fire -/

/-- Who may fire a trigger, and what the permission costs. -/
inductive MayFire (env : Env) (m : Machine) (triggerId : String) : Machine → Prop
  | executor (absent : m.contract.sessionGrants.get env.signerPk = none)
      (executor : m.contract.isExecutor env.predecessor = true) : MayFire env m triggerId m
  | session {grant : SessionGrant} (stored : m.contract.sessionGrants.get env.signerPk = some grant)
      (inTime : env.now ≤ grant.expiresAtMs) (left : grant.fireCount < grant.maxFireCount)
      (allowed : grant.allowedTriggerIds.all (fun ids => triggerId ∈ ids) = true) :
      MayFire env m triggerId ((m.emit (.sessionFired env.signerPk triggerId
        (SessionGrant.fired grant).fireCount grant.maxFireCount grant.label)).withContract
          { m.contract with
            sessionGrants := m.contract.sessionGrants.insert env.signerPk (SessionGrant.fired grant) })

theorem authorizeFire_ok {env : Env} {m m' : Machine} {triggerId : String}
    (authorized : m.authorizeFire env triggerId = .ok m') : MayFire env m triggerId m' := by
  unfold authorizeFire at authorized
  split at authorized
  · rename_i absent
    simp only [assertExecutor, bind_eq_ok, require_eq_ok] at authorized
    obtain ⟨-, executor, eq⟩ := authorized
    cases eq
    exact .executor absent executor
  · rename_i grant stored
    simp only [bind_eq_ok, require_eq_ok, decide_eq_true_eq] at authorized
    obtain ⟨-, inTime, -, left, -, allowed, eq⟩ := authorized
    cases eq
    exact .session stored inTime left allowed

/-! ## Methods -/

/-- The trigger that `create_balance_trigger` stores. -/
def newTrigger (env : Env) (sequenceId : String) (minBalanceYocto maxRuns : Nat) :
    BalanceTrigger where
  sequenceId := sequenceId
  minBalanceYocto := minBalanceYocto
  maxRuns := maxRuns
  runsStarted := 0
  inFlight := false
  lastExecutorId := none
  lastStartedAtMs := none
  lastFinishedAtMs := none
  lastRunNamespace := none
  lastRunOutcome := none
  createdAtMs := env.now

/-- What an accepted call of a method does. -/
inductive Effect (env : Env) (m : Machine) : PublicCall → Machine → Prop
  | setAuthorizer {authorizerId : Option AccountId}
      (owner : env.predecessor = m.contract.ownerId) :
      Effect env m (.setAuthorizer authorizerId)
        (m.withContract { m.contract with authorizerId := authorizerId })
  | setAuthorizedExecutor {executor : Option AccountId}
      (owner : env.predecessor = m.contract.ownerId) :
      Effect env m (.setAuthorizedExecutor executor)
        (m.withContract { m.contract with authorizedExecutor := executor })
  | executeSteps {steps : List StepInput} {m' : Machine}
      (executor : m.contract.isExecutor env.predecessor = true) (sequencing : Sequencing m m') :
      Effect env m (.executeSteps steps) m'
  | registerStep {input : StepInput} {m' : Machine} (sequencing : Sequencing m m') :
      Effect env m (.registerStep input) m'
  | runSequence {callerId : AccountId} {order : List String} {m' : Machine}
      (executor : m.contract.isExecutor env.predecessor = true) (sequencing : Sequencing m m') :
      Effect env m (.runSequence callerId order) m'
  | saveSequenceTemplate {sequenceId : String} {calls : List StepInput}
      (template : SequenceTemplate) (owner : env.predecessor = m.contract.ownerId) :
      Effect env m (.saveSequenceTemplate sequenceId calls) (m.withContract { m.contract with
        sequenceTemplates := m.contract.sequenceTemplates.insert sequenceId template })
  | deleteSequenceTemplate {sequenceId : String} (owner : env.predecessor = m.contract.ownerId) :
      Effect env m (.deleteSequenceTemplate sequenceId) (m.withContract { m.contract with
        sequenceTemplates := m.contract.sequenceTemplates.remove sequenceId })
  | createBalanceTrigger {triggerId sequenceId : String} {minBalanceYocto maxRuns : Nat}
      (template : SequenceTemplate) (owner : env.predecessor = m.contract.ownerId)
      (absent : m.contract.balanceTriggers.get triggerId = none) :
      Effect env m (.createBalanceTrigger triggerId sequenceId minBalanceYocto maxRuns)
        ((m.withContract { m.contract with
          balanceTriggers := m.contract.balanceTriggers.insert triggerId
            (newTrigger env sequenceId minBalanceYocto maxRuns) }).emit
          (.triggerCreated triggerId sequenceId minBalanceYocto maxRuns env.now
            (some template.calls.length) (some template.totalAttachedDepositYocto)))
  | deleteBalanceTrigger {triggerId : String} (owner : env.predecessor = m.contract.ownerId) :
      Effect env m (.deleteBalanceTrigger triggerId) (m.withContract { m.contract with
        balanceTriggers := m.contract.balanceTriggers.remove triggerId })
  | executeTrigger {triggerId : String} {trigger : BalanceTrigger} {m₁ m' : Machine}
      (authorized : MayFire env m triggerId m₁)
      (stored : m.contract.balanceTriggers.get triggerId = some trigger)
      (undisturbed : Undisturbed m₁ m')
      (books : m'.contract.books = m.contract.books.start env triggerId trigger)
      (contexts : m'.contract.sequenceContexts = m.contract.sequenceContexts)
      (execution : TriggerExecution) (ran : m.executeTrigger env triggerId = .ok (m', execution))
      (about : execution.triggerId = triggerId)
      (nonce : execution.runNonce = trigger.runsStarted + 1)
      (named : execution.sequenceNamespace = automationNamespace triggerId execution.runNonce) :
      Effect env m (.executeTrigger triggerId) m'
  | pruneFinishedAutomationRuns :
      Effect env m .pruneFinishedAutomationRuns m.pruneFinishedAutomationRuns.1
  | enrollSession {pk : String} {expires maxFire allowance : Nat} {label : Option String}
      {allowed : Option (List String)} {parsed : PublicKey}
      (attached : 1 ≤ env.attachedDeposit) (owner : env.predecessor = m.contract.ownerId)
      (known : m.host.parsePublicKey pk = some parsed)
      (funded : m.contract.authorizerId = none → 0 < allowance) :
      Effect env m (.enrollSession pk expires allowed maxFire allowance label)
        { (m.setSessionGrants (m.contract.sessionGrants.insert pk
            ⟨pk, env.now, expires, allowed, maxFire, 0, label⟩)).emit
              (.sessionEnrolled ⟨pk, env.now, expires, allowed, maxFire, 0, label⟩ allowance) with
          receipts := m.receipts ++ [m.addKeyReceipt env "execute_trigger" parsed allowance] }
  | revokeSession {pk : String} {parsed : PublicKey}
      (owner : env.predecessor = m.contract.ownerId)
      (stored : m.contract.sessionGrants.get pk ≠ none)
      (known : m.host.parsePublicKey pk = some parsed) :
      Effect env m (.revokeSession pk)
        { (m.setSessionGrants (m.contract.sessionGrants.remove pk)).emit
            (.sessionRevoked pk "explicit") with
          receipts := m.receipts ++ [m.deleteKeyReceipt env parsed] }
  | revokeExpiredSessions :
      Effect env m .revokeExpiredSessions (m.revokeExpiredSessions env).1
  | enrollProxyKey {pk : String} {expires attach maxGas maxCall allowance : Nat}
      {targets : List AccountId} {methods : Option (List String)} {label : Option String}
      {parsed : PublicKey} (attached : 1 ≤ env.attachedDeposit)
      (owner : env.predecessor = m.contract.ownerId)
      (known : m.host.parsePublicKey pk = some parsed)
      (funded : m.contract.authorizerId = none → 0 < allowance) :
      Effect env m
        (.enrollProxyKey pk expires targets methods attach maxGas maxCall allowance label)
        { (m.setProxyGrants (m.contract.proxyGrants.insert pk
            ⟨pk, env.now, expires, targets, methods, attach, maxGas, maxCall, 0, label⟩)).emit
              (.proxyKeyEnrolled
                ⟨pk, env.now, expires, targets, methods, attach, maxGas, maxCall, 0, label⟩
                allowance) with
          receipts := m.receipts ++ [m.addKeyReceipt env "proxy_call" parsed allowance] }
  | proxyCall {target : AccountId} {method : String} {args : Bytes} {grant : ProxyGrant}
      (stored : m.contract.proxyGrants.get env.signerPk = some grant)
      (inTime : env.now ≤ grant.expiresAtMs) (left : grant.callCount < grant.maxCallCount)
      (aimed : target ∈ grant.allowedTargets)
      (permitted : grant.allowedMethods.all (fun methods => method ∈ methods) = true) :
      Effect env m (.proxyCall target method args)
        (((m.setProxyGrants (m.contract.proxyGrants.insert env.signerPk (ProxyGrant.called grant))).emit
          (.proxyCallDispatched env.signerPk target method args.length grant.attachYocto
            grant.maxGasTgas (ProxyGrant.called grant).callCount grant.maxCallCount grant.label)).send env
              target (.functionCall
                ⟨target, method, .raw args, grant.attachYocto, grant.maxGasTgas⟩))
  | revokeProxyKey {pk : String} {parsed : PublicKey}
      (owner : env.predecessor = m.contract.ownerId)
      (stored : m.contract.proxyGrants.get pk ≠ none)
      (known : m.host.parsePublicKey pk = some parsed) :
      Effect env m (.revokeProxyKey pk)
        { (m.setProxyGrants (m.contract.proxyGrants.remove pk)).emit
            (.proxyKeyRevoked pk "explicit") with
          receipts := m.receipts ++ [m.deleteKeyReceipt env parsed] }
  | revokeExpiredProxyKeys :
      Effect env m .revokeExpiredProxyKeys (m.revokeExpiredProxyKeys env).1

theorem assertOwner_eq_ok {env : Env} {m : Machine} {u : Unit} :
    m.assertOwner env = .ok u ↔ env.predecessor = m.contract.ownerId := by
  simp only [assertOwner, require_eq_ok, decide_eq_true_eq]

/-- An accepted call has the effect of its method. -/
theorem Effect.of_call {env : Env} {m m' : Machine} {method : PublicCall}
    (accepted : m.call env method = .ok m') : Effect env m method m' := by
  simp only [call, bind_eq_ok, require_eq_ok] at accepted
  obtain ⟨-, -, ran⟩ := accepted
  cases method with
  | setAuthorizer authorizerId =>
      simp only [execute, Machine.setAuthorizer, bind_eq_ok, assertOwner_eq_ok,
        Except.ok.injEq] at ran
      obtain ⟨-, owner, rfl⟩ := ran
      exact .setAuthorizer owner
  | setAuthorizedExecutor executor =>
      simp only [execute, Machine.setAuthorizedExecutor, bind_eq_ok, assertOwner_eq_ok,
        Except.ok.injEq] at ran
      obtain ⟨-, owner, rfl⟩ := ran
      exact .setAuthorizedExecutor owner
  | executeSteps steps =>
      simp only [execute, map_fst_eq_ok, Machine.executeSteps, bind_eq_ok, assertExecutor,
        require_eq_ok] at ran
      obtain ⟨n, -, executor, -, -, -, -, m₁, looped, released⟩ := ran
      exact .executeSteps executor (.of_release (registerInputs_ok looped).1 released)
  | registerStep input =>
      simp only [execute, Machine.registerStep, bind_eq_ok, registerStepInNamespace_ok] at ran
      obtain ⟨call, -, -, rfl⟩ := ran
      exact .registerStep ⟨⟨rfl, rfl, rfl⟩, rfl, rfl⟩
  | runSequence callerId order =>
      simp only [execute, map_fst_eq_ok, Machine.runSequence, bind_eq_ok, assertExecutor,
        require_eq_ok] at ran
      obtain ⟨n, -, executor, released⟩ := ran
      exact .runSequence executor (.of_release (@registerSteps_nil env _ _ _ |>.mpr rfl) released)
  | saveSequenceTemplate sequenceId calls =>
      simp only [execute, Machine.saveSequenceTemplate, bind_eq_ok, assertOwner_eq_ok] at ran
      obtain ⟨_, owner, _, _, _, _, _, _, eq⟩ := ran
      cases eq
      exact .saveSequenceTemplate _ owner
  | deleteSequenceTemplate sequenceId =>
      simp only [execute, Machine.deleteSequenceTemplate, bind_eq_ok, assertOwner_eq_ok,
        Except.ok.injEq] at ran
      obtain ⟨-, owner, -, -, -, -, rfl⟩ := ran
      exact .deleteSequenceTemplate owner
  | createBalanceTrigger triggerId sequenceId minBalance maxRuns =>
      simp only [execute, Machine.createBalanceTrigger, bind_eq_ok, require_eq_ok,
        assertOwner_eq_ok, Option.isNone_iff_eq_none, Except.ok.injEq] at ran
      obtain ⟨-, owner, -, -, -, -, -, -, -, absent, template, -, rfl⟩ := ran
      exact .createBalanceTrigger template owner absent
  | deleteBalanceTrigger triggerId =>
      simp only [execute, Machine.deleteBalanceTrigger, bind_eq_ok, assertOwner_eq_ok,
        Except.ok.injEq] at ran
      obtain ⟨-, owner, -, -, -, -, rfl⟩ := ran
      exact .deleteBalanceTrigger owner
  | executeTrigger triggerId =>
      simp only [execute, map_fst_eq_ok] at ran
      obtain ⟨execution, ran⟩ := ran
      have fired := ran
      simp only [Machine.executeTrigger, bind_eq_ok, expect_eq_ok] at fired
      obtain ⟨m₁, authorized, trigger, stored, template, known, -, checked, m₂, registered,
        ⟨m₃, n⟩, released, eq⟩ := fired
      obtain ⟨aside, triggers⟩ := authorizeFire_aside authorized
      have noted : Sequencing m₂ (m₂.emit (.triggerFired (triggerFiredEvent env triggerId
        (automationNamespace triggerId (trigger.runsStarted + 1)) (trigger.runsStarted + 1)
        trigger template))) := ⟨⟨rfl, rfl, rfl⟩, rfl, rfl⟩
      have before : Undisturbed m₁ m₃ := ((Undisturbed.registerSteps registered).trans
        noted.toUndisturbed).trans (.startSequenceRelease released)
      have same : m₃.contract.books = m.contract.books :=
        (startSequenceRelease_books released).trans ((registerSteps_books registered).trans
          (Contract.books_eq triggers aside.automationRuns))
      rw [triggers] at stored
      cases eq
      refine .executeTrigger (authorizeFire_ok authorized) stored
        (before.trans ⟨rfl, rfl, rfl⟩) ?_ ?_ _ ran rfl rfl rfl
      · rw [books_recordRunStarted, same]
      · exact (startSequenceRelease_contexts released).trans
          ((registerSteps_contexts registered).trans aside.sequenceContexts)
  | pruneFinishedAutomationRuns =>
      cases ran
      exact .pruneFinishedAutomationRuns
  | enrollSession pk expires allowed maxFire allowance label =>
      simp only [execute, Machine.enrollSession, bind_eq_ok, assertOwner_eq_ok, require_eq_ok,
        decide_eq_true_eq, expect_eq_ok] at ran
      obtain ⟨-, attached, -, owner, -, -, -, -, parsed, known, sent⟩ := ran
      obtain ⟨funded, rfl⟩ := addKeyPromise_ok sent
      exact .enrollSession attached owner known funded
  | revokeSession pk =>
      simp only [execute, Machine.revokeSession, bind_eq_ok, assertOwner_eq_ok, require_eq_ok,
        expect_eq_ok, Except.ok.injEq, Option.isSome_iff_ne_none] at ran
      obtain ⟨-, owner, -, stored, parsed, known, rfl⟩ := ran
      rw [buildSessionDeleteKeyPromise, deleteKeyPromise_eq]
      exact .revokeSession owner stored known
  | revokeExpiredSessions =>
      cases ran
      exact .revokeExpiredSessions
  | enrollProxyKey pk expires targets methods attach maxGas maxCall allowance label =>
      simp only [execute, Machine.enrollProxyKey, bind_eq_ok, assertOwner_eq_ok, require_eq_ok,
        decide_eq_true_eq, expect_eq_ok] at ran
      obtain ⟨-, attached, -, owner, -, -, -, -, -, -, -, -, -, -, parsed, known, sent⟩ := ran
      obtain ⟨funded, rfl⟩ := addKeyPromise_ok sent
      exact .enrollProxyKey attached owner known funded
  | proxyCall target method args =>
      simp only [execute, Machine.proxyCall, bind_eq_ok, require_eq_ok, decide_eq_true_eq,
        expect_eq_ok, Except.ok.injEq] at ran
      obtain ⟨grant, stored, -, inTime, -, left, -, aimed, -, permitted, rfl⟩ := ran
      exact .proxyCall stored inTime left aimed permitted
  | revokeProxyKey pk =>
      simp only [execute, Machine.revokeProxyKey, bind_eq_ok, assertOwner_eq_ok, require_eq_ok,
        expect_eq_ok, Except.ok.injEq, Option.isSome_iff_ne_none] at ran
      obtain ⟨-, owner, -, stored, parsed, known, rfl⟩ := ran
      rw [buildProxyDeleteKeyPromise, deleteKeyPromise_eq]
      exact .revokeProxyKey owner stored known
  | revokeExpiredProxyKeys =>
      cases ran
      exact .revokeExpiredProxyKeys

/-- No method touches the saved results. -/
theorem Effect.contexts {env : Env} {m m' : Machine} {method : PublicCall}
    (effect : Effect env m method m') :
    m'.contract.sequenceContexts = m.contract.sequenceContexts := by
  cases effect with
  | executeSteps executor sequencing => exact sequencing.contexts
  | registerStep sequencing => exact sequencing.contexts
  | runSequence executor sequencing => exact sequencing.contexts
  | executeTrigger authorized stored undisturbed books contexts => exact contexts
  | pruneFinishedAutomationRuns => rw [(pruneFinishedAutomationRuns_eq m).2.1]
  | revokeExpiredSessions => rw [(revokeExpiredSessions_eq env m).2.1]
  | revokeExpiredProxyKeys => rw [(revokeExpiredProxyKeys_eq env m).2.1]
  | _ => rfl

theorem step_transact {env : Env} {m m' : Machine} {method : PublicCall}
    (called : m.call env method = .ok m') : m.step (.transact env method) = m' := by
  simp only [step, transact, called]

theorem step_refused {env : Env} {m : Machine} {method : PublicCall} {message : String}
    (refused : m.call env method = .error message) : m.step (.transact env method) = m := by
  simp only [step, transact, refused]

theorem call_of_isOk {env : Env} {m : Machine} {method : PublicCall}
    (accepted : (m.call env method).isOk = true) :
    m.call env method = .ok (m.step (.transact env method)) := by
  cases called : m.call env method with
  | error message =>
      rw [called] at accepted
      cases accepted
  | ok m' => rw [step_transact called]

/-! ## Observations along a run -/

/-- What an observer sees at the operations of a run, oldest first. -/
def observe {α : Type} (see : Machine → Op → Option α) (m : Machine) : List Op → List α
  | [] => []
  | op :: ops => (see m op).toList ++ observe see (m.step op) ops

theorem observe_append {α : Type} (see : Machine → Op → Option α) (m : Machine)
    (before after : List Op) :
    m.observe see (before ++ after) = m.observe see before ++ (m.run before).observe see after := by
  induction before generalizing m with
  | nil => rfl
  | cons op before ih =>
      rw [List.cons_append, observe, ih, observe, List.append_assoc, run_cons]

end Machine

end SmartAccount
