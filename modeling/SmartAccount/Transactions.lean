import SmartAccount.Writes

/-!
# What an accepted transaction does

One inversion lemma for each step of an accepted call (`registerStepInNamespace_ok`,
`startSequenceRelease_ok`, ...), and `Accepted.of_call`: an accepted call touches no
sequence at all, prunes finished runs, registers or releases a manual plan, or fires
a trigger.
-/

namespace SmartAccount

open Foundation

namespace Machine

/-! ## Registration -/

/-- The machine after one more step is registered. -/
def withRegistered (env : Env) (m : Machine) (ns : String) (call : Step) : Machine :=
  ((({ m with pool := m.pool.create ⟨.yielded,
      [⟨.onStepResumed ns call.stepId, resumeCallbackGas call + env.spareGas⟩]⟩ }.storeStep ns
        call.stepId ⟨m.pool.next, call, env.now⟩).note
          (.registered ns m.pool.next call (resumeCallbackGas call + env.spareGas))).emit
            (.stepRegistered call.stepId ns env.now (resumeCallbackGas call) call.metadataFull))

theorem getStep_withRegistered (env : Env) (m : Machine) (ns : String) (call : Step)
    (stepId : String) :
    (m.withRegistered env ns call).getStep ns stepId =
      if stepId = call.stepId then some ⟨m.pool.next, call, env.now⟩ else m.getStep ns stepId := by
  change (m.contract.registeredSteps.insert (registeredStepKey ns call.stepId) _).get
    (registeredStepKey ns stepId) = _
  rw [IterableMap.get_insert]
  by_cases same : stepId = call.stepId
  · rw [if_pos same, if_pos (registeredStepKey_inj.mpr same)]
  · rw [if_neg same, if_neg fun keys => same (registeredStepKey_inj.mp keys)]
    rfl

theorem registerStepInNamespace_ok {env : Env} {m m' : Machine} {ns : String} {call : Step} :
    m.registerStepInNamespace env ns call = .ok m' ↔
      m.getStep ns call.stepId = none ∧ m' = m.withRegistered env ns call := by
  simp only [registerStepInNamespace, bind_eq_ok, require_eq_ok, Option.isNone_iff_eq_none,
    newYield, Except.ok.injEq]
  constructor
  · rintro ⟨_, absent, rfl⟩
    exact ⟨absent, rfl⟩
  · rintro ⟨absent, rfl⟩
    exact ⟨(), absent, rfl⟩

theorem registerSteps_nil {env : Env} {m m' : Machine} {ns : String} :
    m.registerSteps env ns [] = .ok m' ↔ m' = m := by
  simp only [registerSteps, List.foldlM_nil, pure, Except.pure, Except.ok.injEq, eq_comm]

theorem registerSteps_cons {env : Env} {m m' : Machine} {ns : String} {call : Step}
    {calls : List Step} :
    m.registerSteps env ns (call :: calls) = .ok m' ↔
      m.getStep ns call.stepId = none ∧
        (m.withRegistered env ns call).registerSteps env ns calls = .ok m' := by
  simp only [registerSteps, List.foldlM_cons, bind_eq_ok, registerStepInNamespace_ok]
  constructor
  · rintro ⟨_, ⟨absent, rfl⟩, rest⟩
    exact ⟨absent, rest⟩
  · rintro ⟨absent, rest⟩
    exact ⟨_, ⟨absent, rfl⟩, rest⟩

/-- The registration loop of `execute_steps` registers the steps it validated. -/
theorem registerInputs_ok {env : Env} {m m' : Machine} {ns : String} {steps : List StepInput}
    (accepted : m.registerInputs env ns steps = .ok m') :
    m.registerSteps env ns steps = .ok m' ∧ ∀ call ∈ steps, validateStep call = .ok () := by
  induction steps generalizing m with
  | nil =>
      cases accepted
      exact ⟨registerSteps_nil.mpr rfl, fun call member => absurd member List.not_mem_nil⟩
  | cons input rest ih =>
      simp only [registerInputs, bind_eq_ok, stepFromRaw_eq_ok,
        registerStepInNamespace_ok] at accepted
      obtain ⟨call, ⟨valid, rfl⟩, _, ⟨absent, rfl⟩, looped⟩ := accepted
      obtain ⟨registered, valids⟩ := ih looped
      refine ⟨registerSteps_cons.mpr ⟨absent, registered⟩, ?_⟩
      exact List.forall_mem_cons.mpr ⟨valid, valids⟩

/-! ## Release -/

theorem resumeYield_eq_some {m m' : Machine} {yieldId : YieldId} :
    m.resumeYield yieldId = some m' ↔
      ∃ thens, m.pool.get yieldId = some ⟨.yielded, thens⟩ ∧
        m' = { m with
          pool := m.pool.update yieldId ⟨.done (.successful (utf8Bytes "null")), thens⟩ } := by
  unfold resumeYield
  split
  · rename_i thens stored
    simp only [Option.some.injEq, stored, Flight.mk.injEq, true_and]
    constructor
    · rintro rfl
      exact ⟨thens, rfl, rfl⟩
    · rintro ⟨_, rfl, rfl⟩
      rfl
  · rename_i other
    simp only [reduceCtorEq, false_iff, not_exists, not_and]
    exact fun thens stored => absurd stored (other thens)

theorem resumeRegisteredStep_ok {m m' : Machine} {ns stepId : String} :
    m.resumeRegisteredStep ns stepId = .ok m' ↔
      ∃ yielded woken, m.getStep ns stepId = some yielded ∧
        m.resumeYield yielded.yieldId = some woken ∧
        m' = woken.noteResumed ns stepId yielded.yieldId := by
  unfold resumeRegisteredStep
  split
  · rename_i absent
    simp [absent]
  · rename_i yielded stored
    simp only [stored, Option.some.injEq]
    split
    · rename_i failed
      simp only [reduceCtorEq, false_iff, not_exists, not_and]
      rintro _ _ rfl resumed
      rw [failed] at resumed
      cases resumed
    · rename_i woken resumed
      simp only [Except.ok.injEq]
      constructor
      · rintro rfl
        exact ⟨yielded, woken, rfl, resumed, rfl⟩
      · rintro ⟨_, _, rfl, same, rfl⟩
        rw [resumed] at same
        cases same
        rfl

theorem checkOrder_ok {m : Machine} {ns : String} {order : List String}
    (checked : m.checkOrder ns order = .ok ()) :
    ∀ stepId ∈ order, (m.getStep ns stepId).isSome := by
  induction order with
  | nil => exact fun _ member => absurd member List.not_mem_nil
  | cons head rest ih =>
      simp only [checkOrder, bind_eq_ok, require_eq_ok] at checked
      obtain ⟨_, known, looped⟩ := checked
      exact List.forall_mem_cons.mpr ⟨known, ih looped⟩

/-- The queue a release leaves behind its first step. -/
def withQueued (m : Machine) (ns : String) (rest : List String) : Machine :=
  if rest ≠ [] then m.setQueue ns rest else m

theorem startSequenceRelease_ok {m m' : Machine} {ns : String} {order : List String} {n : Nat}
    (accepted : m.startSequenceReleaseInNamespace ns order = .ok (m', n)) :
    ∃ first rest resumed, order = first :: rest ∧
      m.contract.sequenceQueue.get ns = none ∧
      (∀ stepId ∈ order, (m.getStep ns stepId).isSome) ∧
      ((m.withQueued ns rest).note (.released ns order)).resumeRegisteredStep ns first =
        .ok resumed ∧
      m' = resumed.emit (resumed.sequenceStartedEvent ns first order.length) ∧
      n = order.length := by
  simp only [startSequenceReleaseInNamespace, bind_eq_ok, require_eq_ok,
    Option.isNone_iff_eq_none] at accepted
  obtain ⟨_, _, _, idle, _, checked, accepted⟩ := accepted
  cases order with
  | nil => cases accepted
  | cons first rest =>
      simp only [bind_eq_ok, Except.ok.injEq, Prod.mk.injEq] at accepted
      obtain ⟨resumed, woken, rfl, rfl⟩ := accepted
      exact ⟨first, rest, resumed, rfl, idle, checkOrder_ok checked, woken, rfl, rfl⟩

/-- A release is a sequence of writes of its namespace. -/
theorem startSequenceRelease_writes {m m' : Machine} {ns : String} {order : List String}
    {n : Nat} (accepted : m.startSequenceReleaseInNamespace ns order = .ok (m', n)) :
    Writes ns m m' := by
  obtain ⟨first, rest, resumed, rfl, _, _, woken, rfl, _⟩ := startSequenceRelease_ok accepted
  have queued : Writes ns m (m.withQueued ns rest) := by
    unfold withQueued
    split
    · exact .single (.setQueue _)
    · exact .refl
  exact ((queued.tail (.note _ rfl rfl)).trans (Writes.resumeRegisteredStep woken)).trans
    (Writes.emit _ rfl)

end Machine

/-! ## Calls that touch no sequence -/

/-- The call left the sequencer's state alone. -/
structure Aside (m m' : Machine) : Prop where
  host : m'.host = m.host
  registeredSteps : m'.contract.registeredSteps = m.contract.registeredSteps
  sequenceQueue : m'.contract.sequenceQueue = m.contract.sequenceQueue
  automationRuns : m'.contract.automationRuns = m.contract.automationRuns
  sequenceContexts : m'.contract.sequenceContexts = m.contract.sequenceContexts
  pool : m'.pool = m.pool
  trace : ∃ events : List Event, (∀ event ∈ events, event.sequenceNamespace = none) ∧
    m'.trace = m.trace ++ events.map (.emitted m.executing)
  executing : m'.executing = m.executing

namespace Aside

theorem refl (m : Machine) : Aside m m :=
  ⟨rfl, rfl, rfl, rfl, rfl, rfl, ⟨[], by simp, by simp⟩, rfl⟩

theorem trans {m₁ m₂ m₃ : Machine} (first : Aside m₁ m₂) (second : Aside m₂ m₃) :
    Aside m₁ m₃ where
  host := second.host.trans first.host
  registeredSteps := second.registeredSteps.trans first.registeredSteps
  sequenceQueue := second.sequenceQueue.trans first.sequenceQueue
  automationRuns := second.automationRuns.trans first.automationRuns
  sequenceContexts := second.sequenceContexts.trans first.sequenceContexts
  pool := second.pool.trans first.pool
  trace := by
    obtain ⟨events, silent, eq⟩ := first.trace
    obtain ⟨events', silent', eq'⟩ := second.trace
    refine ⟨events ++ events', ?_, ?_⟩
    · intro event member
      exact (List.mem_append.mp member).elim (silent event) (silent' event)
    · rw [eq', eq, first.executing, List.map_append, List.append_assoc]
  executing := second.executing.trans first.executing

theorem emit (m : Machine) {event : Event} (silent : event.sequenceNamespace = none) :
    Aside m (m.emit event) :=
  ⟨rfl, rfl, rfl, rfl, rfl, rfl, ⟨[event], by simp [silent], rfl⟩, rfl⟩

theorem send (env : Env) (m : Machine) (receiverId : AccountId) (action : Action) :
    Aside m (m.send env receiverId action) :=
  ⟨rfl, rfl, rfl, rfl, rfl, rfl, ⟨[], by simp, by simp [Machine.send]⟩, rfl⟩

/-- A write to the root record outside the sequencer's fields. -/
theorem withContract {m : Machine} {c : Contract}
    (registeredSteps : c.registeredSteps = m.contract.registeredSteps)
    (sequenceQueue : c.sequenceQueue = m.contract.sequenceQueue)
    (automationRuns : c.automationRuns = m.contract.automationRuns)
    (sequenceContexts : c.sequenceContexts = m.contract.sequenceContexts) :
    Aside m (m.withContract c) :=
  ⟨rfl, registeredSteps, sequenceQueue, automationRuns, sequenceContexts, rfl,
    ⟨[], by simp, by simp [Machine.withContract]⟩, rfl⟩

/-- New session grants, announced by an event about no sequence. -/
theorem setSessionGrants (m : Machine) (grants : IterableMap String SessionGrant)
    {event : Event} (silent : event.sequenceNamespace = none) :
    Aside m ((m.setSessionGrants grants).emit event) :=
  (withContract rfl rfl rfl rfl : Aside m (m.setSessionGrants grants)).trans (emit _ silent)

/-- New proxy grants, announced by an event about no sequence. -/
theorem setProxyGrants (m : Machine) (grants : IterableMap String ProxyGrant)
    {event : Event} (silent : event.sequenceNamespace = none) :
    Aside m ((m.setProxyGrants grants).emit event) :=
  (withContract rfl rfl rfl rfl : Aside m (m.setProxyGrants grants)).trans (emit _ silent)

theorem addKeyPromise {env : Env} {m m' : Machine} {methodName : String}
    {parsedPk : PublicKey} {allowanceYocto : Nat}
    (sent : m.addKeyPromise env methodName parsedPk allowanceYocto = .ok m') : Aside m m' := by
  unfold Machine.addKeyPromise at sent
  split at sent
  · cases sent
    exact send env m _ _
  · obtain ⟨_, _, eq⟩ := bind_eq_ok.mp sent
    cases eq
    exact send env m _ _

theorem deleteKeyPromise (env : Env) (m : Machine) (parsedPk : PublicKey) :
    Aside m (m.deleteKeyPromise env parsedPk) := by
  unfold Machine.deleteKeyPromise
  split <;> exact send env m _ _

end Aside

/-! ## Triggers -/

/-- How a call that touches no sequence may change the balance triggers. -/
inductive TriggerEdit (c c' : Contract) : Prop
  | kept (same : c'.balanceTriggers = c.balanceTriggers)
  | created (triggerId sequenceId : String) (minBalanceYocto maxRuns createdAtMs : Nat)
      (absent : c.balanceTriggers.get triggerId = none)
      (same : c'.balanceTriggers = c.balanceTriggers.insert triggerId {
        sequenceId := sequenceId, minBalanceYocto := minBalanceYocto, maxRuns := maxRuns
        runsStarted := 0, inFlight := false, lastExecutorId := none, lastStartedAtMs := none
        lastFinishedAtMs := none, lastRunNamespace := none, lastRunOutcome := none
        createdAtMs := createdAtMs })
  | deleted (triggerId : String) (trigger : BalanceTrigger)
      (stored : c.balanceTriggers.get triggerId = some trigger) (idle : trigger.inFlight = false)
      (same : c'.balanceTriggers = c.balanceTriggers.remove triggerId)

/-! ## The inversion of an accepted call -/

/-- What an accepted call can be. -/
inductive Accepted (env : Env) (m : Machine) : Machine → Prop
  | aside {m' : Machine} (aside : Aside m m') (edit : TriggerEdit m.contract m'.contract) :
      Accepted env m m'
  | pruned : Accepted env m m.pruneFinishedAutomationRuns.1
  | registered {m' : Machine} (caller : AccountId) (call : Step)
      (valid : validateStep call = .ok ())
      (registered : m.registerStepInNamespace env (manualNamespace caller) call = .ok m') :
      Accepted env m m'
  | released {m₁ m' : Machine} {n : Nat} (caller : AccountId) (calls : List Step)
      (order : List String) (valid : ∀ call ∈ calls, validateStep call = .ok ())
      (registered : m.registerSteps env (manualNamespace caller) calls = .ok m₁)
      (released : m₁.startSequenceReleaseInNamespace (manualNamespace caller) order =
        .ok (m', n)) : Accepted env m m'
  | fired {m₁ m₂ m₃ : Machine} {n : Nat} {trigger : BalanceTrigger}
      {template : SequenceTemplate} (triggerId : String)
      (authorized : m.authorizeFire env triggerId = .ok m₁)
      (stored : m₁.contract.balanceTriggers.get triggerId = some trigger)
      (known : m₁.contract.sequenceTemplates.get trigger.sequenceId = some template)
      (checked : m₁.checkTrigger env triggerId trigger template = .ok ())
      (registered : m₁.registerSteps env
        (automationNamespace triggerId (trigger.runsStarted + 1)) template.calls = .ok m₂)
      (released : (m₂.emit (.triggerFired (Machine.triggerFiredEvent env triggerId
          (automationNamespace triggerId (trigger.runsStarted + 1)) (trigger.runsStarted + 1)
          trigger template))).startSequenceReleaseInNamespace
            (automationNamespace triggerId (trigger.runsStarted + 1))
            (template.calls.map Step.stepId) = .ok (m₃, n)) :
      Accepted env m (m₃.recordRunStarted env triggerId
        (automationNamespace triggerId (trigger.runsStarted + 1)) (trigger.runsStarted + 1)
        trigger)

theorem authorizeFire_aside {env : Env} {m m' : Machine} {triggerId : String}
    (authorized : m.authorizeFire env triggerId = .ok m') :
    Aside m m' ∧ m'.contract.balanceTriggers = m.contract.balanceTriggers := by
  unfold Machine.authorizeFire at authorized
  split at authorized
  · obtain ⟨_, _, eq⟩ := bind_eq_ok.mp authorized
    cases eq
    exact ⟨.refl m, rfl⟩
  · simp only [bind_eq_ok, require_eq_ok] at authorized
    obtain ⟨_, _, _, _, _, _, eq⟩ := authorized
    cases eq
    exact ⟨(Aside.emit m rfl).trans (.withContract rfl rfl rfl rfl), rfl⟩

/-- A call that only writes to the root record outside the sequencer's fields. -/
theorem Accepted.config {env : Env} {m : Machine} {c : Contract}
    (registeredSteps : c.registeredSteps = m.contract.registeredSteps)
    (sequenceQueue : c.sequenceQueue = m.contract.sequenceQueue)
    (automationRuns : c.automationRuns = m.contract.automationRuns)
    (sequenceContexts : c.sequenceContexts = m.contract.sequenceContexts)
    (balanceTriggers : c.balanceTriggers = m.contract.balanceTriggers) :
    Accepted env m (m.withContract c) :=
  .aside (.withContract registeredSteps sequenceQueue automationRuns sequenceContexts)
    (.kept balanceTriggers)

theorem addKeyPromise_contract {env : Env} {m m' : Machine} {methodName : String}
    {parsedPk : PublicKey} {allowanceYocto : Nat}
    (sent : m.addKeyPromise env methodName parsedPk allowanceYocto = .ok m') :
    m'.contract = m.contract := by
  unfold Machine.addKeyPromise at sent
  split at sent
  · cases sent
    rfl
  · obtain ⟨_, _, eq⟩ := bind_eq_ok.mp sent
    cases eq
    rfl

theorem deleteKeyPromise_contract (env : Env) (m : Machine) (parsedPk : PublicKey) :
    (m.deleteKeyPromise env parsedPk).contract = m.contract := by
  unfold Machine.deleteKeyPromise
  split <;> rfl

/-- A call that changes session grants, then sends a receipt. -/
theorem Accepted.sessionGrants {env : Env} {m m' : Machine}
    {grants : IterableMap String SessionGrant} {event : Event}
    (sent : Aside ((m.setSessionGrants grants).emit event) m')
    (same : m'.contract = ((m.setSessionGrants grants).emit event).contract)
    (silent : event.sequenceNamespace = none) : Accepted env m m' :=
  .aside (.trans (.setSessionGrants m grants silent) sent) (.kept (by rw [same]; rfl))

/-- A call that changes proxy grants, then sends a receipt. -/
theorem Accepted.proxyGrants {env : Env} {m m' : Machine}
    {grants : IterableMap String ProxyGrant} {event : Event}
    (sent : Aside ((m.setProxyGrants grants).emit event) m')
    (same : m'.contract = ((m.setProxyGrants grants).emit event).contract)
    (silent : event.sequenceNamespace = none) : Accepted env m m' :=
  .aside (.trans (.setProxyGrants m grants silent) sent) (.kept (by rw [same]; rfl))

/-- One pass of either expiry loop leaves the sequencer alone. -/
theorem revokeExpiredSession_aside (env : Env) (m : Machine) (pk : String) :
    Aside m (m.revokeExpiredSession env pk) ∧
      (m.revokeExpiredSession env pk).contract.balanceTriggers = m.contract.balanceTriggers := by
  have removed : Aside m (m.setSessionGrants (m.contract.sessionGrants.remove pk)) :=
    .withContract rfl rfl rfl rfl
  unfold Machine.revokeExpiredSession
  simp only
  split
  · rename_i parsed _
    refine ⟨(removed.trans (.deleteKeyPromise env _ parsed)).trans (.emit _ rfl), ?_⟩
    have sent := congrArg ContractOf.balanceTriggers (deleteKeyPromise_contract env
      (m.setSessionGrants (m.contract.sessionGrants.remove pk)) parsed)
    exact sent
  · exact ⟨removed.trans (.emit _ rfl), rfl⟩

theorem revokeExpiredProxyKey_aside (env : Env) (m : Machine) (pk : String) :
    Aside m (m.revokeExpiredProxyKey env pk) ∧
      (m.revokeExpiredProxyKey env pk).contract.balanceTriggers = m.contract.balanceTriggers := by
  have removed : Aside m (m.setProxyGrants (m.contract.proxyGrants.remove pk)) :=
    .withContract rfl rfl rfl rfl
  unfold Machine.revokeExpiredProxyKey
  simp only
  split
  · rename_i parsed _
    refine ⟨(removed.trans (.deleteKeyPromise env _ parsed)).trans (.emit _ rfl), ?_⟩
    have sent := congrArg ContractOf.balanceTriggers (deleteKeyPromise_contract env
      (m.setProxyGrants (m.contract.proxyGrants.remove pk)) parsed)
    exact sent
  · exact ⟨removed.trans (.emit _ rfl), rfl⟩

/-- A loop whose passes leave the sequencer alone does. -/
theorem foldl_aside {pass : Machine → String → Machine}
    (one : ∀ m pk, Aside m (pass m pk) ∧
      (pass m pk).contract.balanceTriggers = m.contract.balanceTriggers)
    (pks : List String) (m : Machine) :
    Aside m (pks.foldl pass m) ∧
      (pks.foldl pass m).contract.balanceTriggers = m.contract.balanceTriggers := by
  induction pks generalizing m with
  | nil => exact ⟨.refl m, rfl⟩
  | cons pk pks ih =>
      obtain ⟨first, same⟩ := one m pk
      obtain ⟨rest, same'⟩ := ih (pass m pk)
      exact ⟨first.trans rest, same'.trans same⟩

theorem map_fst_eq_ok {ε α β : Type} {x : Except ε (α × β)} {a : α} :
    x.map Prod.fst = .ok a ↔ ∃ b, x = .ok (a, b) := by
  rw [map_eq_ok]
  constructor
  · rintro ⟨⟨a', b⟩, ran, rfl⟩
    exact ⟨b, ran⟩
  · rintro ⟨b, ran⟩
    exact ⟨(a, b), ran, rfl⟩

/-- An accepted call is one of the cases of `Accepted`. -/
theorem Accepted.of_call {env : Env} {m m' : Machine} {method : PublicCall}
    (accepted : m.call env method = .ok m') : Accepted env m m' := by
  simp only [Machine.call, bind_eq_ok, require_eq_ok] at accepted
  obtain ⟨_, _, ran⟩ := accepted
  cases method with
  | setAuthorizer authorizerId =>
      simp only [Machine.execute, Machine.setAuthorizer, bind_eq_ok, Except.ok.injEq] at ran
      obtain ⟨_, _, rfl⟩ := ran
      exact .config rfl rfl rfl rfl rfl
  | setAuthorizedExecutor executor =>
      simp only [Machine.execute, Machine.setAuthorizedExecutor, bind_eq_ok,
        Except.ok.injEq] at ran
      obtain ⟨_, _, rfl⟩ := ran
      exact .config rfl rfl rfl rfl rfl
  | executeSteps steps =>
      simp only [Machine.execute, map_fst_eq_ok, Machine.executeSteps, bind_eq_ok] at ran
      obtain ⟨n, _, _, _, _, _, _, m₁, looped, released⟩ := ran
      obtain ⟨registered, valid⟩ := Machine.registerInputs_ok looped
      exact .released env.predecessor steps _ valid registered released
  | registerStep input =>
      simp only [Machine.execute, Machine.registerStep, bind_eq_ok, stepFromRaw_eq_ok] at ran
      obtain ⟨_, ⟨valid, rfl⟩, registered⟩ := ran
      exact .registered env.predecessor _ valid registered
  | runSequence callerId order =>
      simp only [Machine.execute, map_fst_eq_ok, Machine.runSequence, bind_eq_ok] at ran
      obtain ⟨n, _, _, released⟩ := ran
      exact .released callerId [] order (fun _ member => absurd member List.not_mem_nil)
        (Machine.registerSteps_nil.mpr rfl) released
  | saveSequenceTemplate sequenceId calls =>
      simp only [Machine.execute, Machine.saveSequenceTemplate, bind_eq_ok] at ran
      obtain ⟨_, _, _, _, _, _, _, _, eq⟩ := ran
      cases eq
      exact .config rfl rfl rfl rfl rfl
  | deleteSequenceTemplate sequenceId =>
      simp only [Machine.execute, Machine.deleteSequenceTemplate, bind_eq_ok,
        Except.ok.injEq] at ran
      obtain ⟨_, _, _, _, _, _, rfl⟩ := ran
      exact .config rfl rfl rfl rfl rfl
  | createBalanceTrigger triggerId sequenceId minBalance maxRuns =>
      simp only [Machine.execute, Machine.createBalanceTrigger, bind_eq_ok, require_eq_ok,
        Option.isNone_iff_eq_none, Except.ok.injEq] at ran
      obtain ⟨_, _, _, _, _, _, _, _, _, absent, _, _, rfl⟩ := ran
      refine .aside (.trans (.withContract ?_ ?_ ?_ ?_) (.emit _ rfl))
        (.created triggerId sequenceId minBalance maxRuns env.now absent rfl) <;> rfl
  | deleteBalanceTrigger triggerId =>
      simp only [Machine.execute, Machine.deleteBalanceTrigger, bind_eq_ok, expect_eq_ok,
        require_eq_ok, Bool.not_eq_true', Except.ok.injEq] at ran
      obtain ⟨_, _, trigger, stored, _, idle, rfl⟩ := ran
      exact .aside (.withContract rfl rfl rfl rfl) (.deleted triggerId trigger stored idle rfl)
  | executeTrigger triggerId =>
      simp only [Machine.execute, map_fst_eq_ok, Machine.executeTrigger, bind_eq_ok,
        expect_eq_ok] at ran
      obtain ⟨_, m₁, authorized, trigger, stored, template, known, _, checked, m₂, registered,
        ⟨m₃, n⟩, released, eq⟩ := ran
      cases eq
      exact .fired triggerId authorized stored known checked registered released
  | pruneFinishedAutomationRuns =>
      cases ran
      exact .pruned
  | enrollSession pk expires allowed maxFire allowance label =>
      simp only [Machine.execute, Machine.enrollSession, bind_eq_ok] at ran
      obtain ⟨_, _, _, _, _, _, _, _, _, _, sent⟩ := ran
      exact .sessionGrants (.addKeyPromise sent) (addKeyPromise_contract sent) rfl
  | revokeSession pk =>
      simp only [Machine.execute, Machine.revokeSession, bind_eq_ok, Except.ok.injEq] at ran
      obtain ⟨_, _, _, _, _, _, rfl⟩ := ran
      exact .sessionGrants (.deleteKeyPromise env _ _) (deleteKeyPromise_contract env _ _) rfl
  | revokeExpiredSessions =>
      cases ran
      obtain ⟨aside, same⟩ := foldl_aside (revokeExpiredSession_aside env)
        (Machine.expiredSessions env m.contract) m
      exact .aside aside (.kept same)
  | enrollProxyKey pk expires targets methods attach maxGas maxCall allowance label =>
      simp only [Machine.execute, Machine.enrollProxyKey, bind_eq_ok] at ran
      obtain ⟨_, _, _, _, _, _, _, _, _, _, _, _, _, _, _, _, sent⟩ := ran
      exact .proxyGrants (.addKeyPromise sent) (addKeyPromise_contract sent) rfl
  | proxyCall target method args =>
      simp only [Machine.execute, Machine.proxyCall, bind_eq_ok, Except.ok.injEq] at ran
      obtain ⟨_, _, _, _, _, _, _, _, _, _, rfl⟩ := ran
      exact .proxyGrants (.send env _ _ _) rfl rfl
  | revokeProxyKey pk =>
      simp only [Machine.execute, Machine.revokeProxyKey, bind_eq_ok, Except.ok.injEq] at ran
      obtain ⟨_, _, _, _, _, _, rfl⟩ := ran
      exact .proxyGrants (.deleteKeyPromise env _ _) (deleteKeyPromise_contract env _ _) rfl
  | revokeExpiredProxyKeys =>
      cases ran
      obtain ⟨aside, same⟩ := foldl_aside (revokeExpiredProxyKey_aside env)
        (Machine.expiredProxyKeys env m.contract) m
      exact .aside aside (.kept same)

end SmartAccount
