import SmartAccount.WellFormed

/-!
# Stale yields

A registered step whose yield times out is dropped by the Err branch of `on_step_resumed`,
which also drops the queue and the saved results of the whole namespace, whoever they
belong to.  In a manual namespace the timeout leaves everything else alone exactly when
there is neither (`timeout_removes_only_iff`).
-/

namespace SmartAccount

open Foundation

/-- One step of the namespace is gone, and its flight; all other registered steps, all
queues, all saved results and all other flights are as before. -/
structure RemovesOnly (ns stepId : String) (yieldId : YieldId) (m m' : Machine) : Prop where
  steps : ∀ key, m'.contract.registeredSteps.get key =
    if key = registeredStepKey ns stepId then none else m.contract.registeredSteps.get key
  queues : ∀ ns', m'.contract.sequenceQueue.get ns' = m.contract.sequenceQueue.get ns'
  contexts : ∀ ns', m'.contract.sequenceContexts.get ns' = m.contract.sequenceContexts.get ns'
  flights : ∀ id, id ≠ yieldId → m'.pool.get id = m.pool.get id

namespace Machine

variable {env : Env} {m : Machine} {ns stepId : String} {yielded : RegisteredStep} {gas : Nat}

/-- Closing a run does nothing in a namespace without one. -/
theorem finishAutomationRun_of_none (absent : m.contract.automationRuns.get ns = none) (env : Env)
    (status : AutomationRunStatus) (failedStepId : Option String) :
    m.finishAutomationRun env ns status failedStepId = m := by
  unfold finishAutomationRun
  rw [absent]

/-- The Err branch of `on_step_resumed`, in a namespace without a run. -/
theorem haltOnTimeout_of_none (absent : m.contract.automationRuns.get ns = none) (env : Env)
    (yielded : RegisteredStep) (error : PromiseError) :
    ∃ event, m.haltOnTimeout env ns stepId yielded error =
      (((m.removeStep ns stepId).removeQueue ns).clearContext ns).emit event := by
  have absent' : (((m.removeStep ns stepId).removeQueue ns).clearContext
      ns).contract.automationRuns.get ns = none := absent
  unfold haltOnTimeout haltSequence
  rw [finishAutomationRun_of_none absent']
  exact ⟨_, rfl⟩

/-- What the delivery of a timeout does in a namespace without a run. -/
theorem deliver_timeout (registered : m.getStep ns stepId = some yielded)
    (timedOut : m.pool.get yielded.yieldId =
      some ⟨.done .failed, [⟨.onStepResumed ns stepId, gas⟩]⟩)
    (absent : m.contract.automationRuns.get ns = none) (env : Env) (answer : PromiseResult) :
    (m.deliver env yielded.yieldId answer).contract =
        { m.contract with
          registeredSteps := m.contract.registeredSteps.remove (registeredStepKey ns stepId)
          sequenceQueue := m.contract.sequenceQueue.remove ns
          sequenceContexts := m.contract.sequenceContexts.remove ns } ∧
      (m.deliver env yielded.yieldId answer).pool = m.pool.remove yielded.yieldId := by
  have absent' : ({ m with executing := some yielded.yieldId }.note (.delivered yielded.yieldId
      (.onStepResumed ns stepId) .failed)).contract.automationRuns.get ns = none := absent
  obtain ⟨event, halted⟩ := @haltOnTimeout_of_none _ ns stepId absent' env yielded .failed
  have ran : m.attempt env yielded.yieldId ⟨.onStepResumed ns stepId, gas⟩ .failed = .ok
      ((((({ m with executing := some yielded.yieldId }.note (.delivered yielded.yieldId
        (.onStepResumed ns stepId) .failed)).removeStep ns stepId).removeQueue ns).clearContext
          ns).emit event, unitValue) := by
    refine attempt_ok.mpr ⟨?_, rfl⟩
    have stored : ({ m with executing := some yielded.yieldId }.note (.delivered yielded.yieldId
        (.onStepResumed ns stepId) .failed)).getStep ns stepId = some yielded := registered
    unfold runCallback onStepResumed
    simp only
    rw [stored]
    simp only
    rw [halted]
  unfold deliver
  rw [timedOut]
  simp only [Head.outcome, runThen]
  rw [ran]
  exact ⟨rfl, rfl⟩

end Machine

/-- In a manual namespace a timed-out step takes nothing with it exactly when nothing is
queued there and no result is saved there. -/
theorem timeout_removes_only_iff {m : Machine} (reachable : m.Reachable) {ns stepId : String}
    (manual : IsManual ns) {yielded : RegisteredStep} {gas : Nat}
    (registered : m.getStep ns stepId = some yielded)
    (timedOut : m.pool.get yielded.yieldId =
      some ⟨.done .failed, [⟨.onStepResumed ns stepId, gas⟩]⟩) (env : Env)
    (answer : PromiseResult) :
    RemovesOnly ns stepId yielded.yieldId m (m.step (.deliver env yielded.yieldId answer)) ↔
      m.contract.sequenceQueue.get ns = none ∧ m.contract.sequenceContexts.get ns = none := by
  have absent : m.contract.automationRuns.get ns = none := by
    cases row : m.contract.automationRuns.get ns with
    | none => rfl
    | some run => exact absurd (reachable.wf.rows ns run row) manual.not_automation
  obtain ⟨contract, pool⟩ := Machine.deliver_timeout registered timedOut absent env answer
  have contract' : (m.step (.deliver env yielded.yieldId answer)).contract = _ := contract
  have pool' : (m.step (.deliver env yielded.yieldId answer)).pool = _ := pool
  have removed : ∀ {V : Type} {stored : IterableMap String V}, stored.get ns = none →
      ∀ ns', (stored.remove ns).get ns' = stored.get ns' := by
    intro V stored none ns'
    rw [IterableMap.get_remove]
    split
    · rename_i same
      rw [same, none]
    · rfl
  constructor
  · intro only
    have queue := only.queues ns
    have context := only.contexts ns
    rw [contract', IterableMap.get_remove_self] at queue context
    exact ⟨queue.symm, context.symm⟩
  · rintro ⟨queue, context⟩
    refine ⟨fun key => ?_, fun ns' => ?_, fun ns' => ?_, fun id other => ?_⟩
    · rw [contract', IterableMap.get_remove]
    · rw [contract', removed queue]
    · rw [contract', removed context]
    · rw [pool', Pool.get_remove, if_neg other]

/-! ## A step staged beside a plan -/

/-- Step `x` is staged and its yield times out while these steps are in flight. -/
def stagedBeside (steps : List Step) : Machine :=
  deployed.run [.transact aliceEnv (.registerStep (plainStep "x")),
    .transact aliceEnv (.executeSteps steps), .timeout 0]

/-- Beside the last step of a plan it goes alone. -/
theorem timeout_removes_only_beside_last :
    RemovesOnly (manualNamespace alice) "x" 0 (stagedBeside [plainStep "a"])
        ((stagedBeside [plainStep "a"]).step (.deliver aliceEnv 0 okResult)) ↔
      (stagedBeside [plainStep "a"]).contract.sequenceQueue.get (manualNamespace alice) = none ∧
      (stagedBeside [plainStep "a"]).contract.sequenceContexts.get (manualNamespace alice) = none :=
  @timeout_removes_only_iff _ (deployed_reachable.run _) _ "x" ⟨alice, rfl⟩ ⟨0, plainStep "x", 0⟩
    50 (by decide) (by decide) aliceEnv okResult

/-- Beside a longer plan it takes the plan's queue with it. -/
theorem timeout_clears_plan_of_others : ∃ (m : Machine) (ns stepId : String)
    (yielded : RegisteredStep) (gas : Nat) (env : Env) (answer : PromiseResult)
    (order : List String), m.Reachable ∧ IsManual ns ∧ m.getStep ns stepId = some yielded ∧
      m.pool.get yielded.yieldId = some ⟨.done .failed, [⟨.onStepResumed ns stepId, gas⟩]⟩ ∧
      (m.trace.orders ns).getLast? = some order ∧ m.contract.sequenceQueue.get ns ≠ none ∧
      stepId ∉ order ∧
      ¬ RemovesOnly ns stepId yielded.yieldId m (m.step (.deliver env yielded.yieldId answer)) := by
  refine ⟨stagedBeside [plainStep "a", plainStep "b"], manualNamespace alice, "x",
    ⟨0, plainStep "x", 0⟩, 50, aliceEnv, okResult, ["a", "b"], deployed_reachable.run _,
    ⟨alice, rfl⟩, by decide, by decide, by decide, by decide,
    by decide, fun only => ?_⟩
  have queue := only.queues (manualNamespace alice)
  have cleared : ((stagedBeside [plainStep "a", plainStep "b"]).step
      (.deliver aliceEnv 0 okResult)).contract.sequenceQueue.get (manualNamespace alice) = none := by
    decide
  have waiting : (stagedBeside [plainStep "a", plainStep "b"]).contract.sequenceQueue.get
      (manualNamespace alice) = some ["b"] := by
    decide
  rw [cleared, waiting] at queue
  cases queue

end SmartAccount
