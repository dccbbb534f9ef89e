import SmartAccount.Gas
import SmartAccount.Refinement
import SmartAccount.Tidy

/-!
# Last callbacks that fail

A callback fails where the host does not create the promise it builds, or where the host ends
it.  Behind a postcheck `on_step_resolved` still runs.  The other callbacks are the last of
their flight: when one of them fails its changes are gone, its flight is over, and the step
it was for stays registered.
-/

namespace SmartAccount

open Foundation

/-! ## The promise a callback builds -/

namespace Machine

/-- The promise a last callback builds for the step it is about, as the step is stored. -/
inductive Builds (m : Machine) (ns : String) : Callback → PromiseResult → Promise → Prop
  | gate {stepId : String} {payload : Bytes} {yielded : RegisteredStep} {preGate : PreGate}
      (stored : m.getStep ns stepId = some yielded) (gate : yielded.call.preGate = some preGate) :
      Builds m ns (.onStepResumed ns stepId) (.successful payload)
        (gatePromise preGate ns stepId yielded.call.gasTgas)
  | dispatch {stepId : String} {callback : Callback} {result : PromiseResult}
      {yielded : RegisteredStep} {effective : Step} (stored : m.getStep ns stepId = some yielded)
      (cleared : Lane.Cleared ns yielded stepId callback result)
      (materialized : m.contract.materializeStepCall ns yielded.call = .ok effective) :
      Builds m ns callback result
        (resolvedPromise m.contract.authorizerId ns stepId effective)

section Building

variable {env : Env} {m m' : Machine} {ns stepId : String} {result : PromiseResult} {p : Promise}

theorem builds_onStepResumed (ran : m.onStepResumed env ns stepId result = (m', .promise p)) :
    m.Builds ns (.onStepResumed ns stepId) result p := by
  unfold onStepResumed at ran
  split at ran
  · cases ran
  · rename_i yielded stored
    split at ran
    · cases ran
    · dsimp only at ran
      split at ran
      · rename_i preGate gate
        cases ran
        exact .gate stored gate
      · rename_i ungated
        obtain ⟨effective, materialized, rfl⟩ := materializeAndDispatch_promise ran
        exact .dispatch stored (.ungated ungated) materialized

theorem builds_onPreGateChecked
    (ran : m.onPreGateChecked env ns stepId result = (m', .promise p)) :
    m.Builds ns (.onPreGateChecked ns stepId) result p := by
  unfold onPreGateChecked at ran
  split at ran
  · cases ran
  · rename_i yielded stored
    split at ran
    · cases ran
    · rename_i preGate gate
      split at ran
      · cases ran
      · rename_i bytes small
        dsimp only at ran
        split at ran
        · rename_i matched
          obtain ⟨effective, materialized, rfl⟩ := materializeAndDispatch_promise ran
          exact .dispatch stored (.inRange gate small (PreGateOutcome.matched_iff.mp matched))
            materialized
        · cases ran

/-- What a callback without `on_step_resolved` behind it builds. -/
theorem builds_of_runCallback {callback : Callback} (plain : callback.isPostcheck = false)
    (ran : m.runCallback env callback result = .ok (m', .promise p)) :
    m.Builds callback.sequenceNamespace callback result p := by
  cases callback with
  | onStepResumed ns stepId => exact builds_onStepResumed (Except.ok.inj ran)
  | onPreGateChecked ns stepId => exact builds_onPreGateChecked (Except.ok.inj ran)
  | onAssertedRunPostcheck ns stepId assertionId method args expected gas => cases plain
  | onAssertedEvaluatePostcheck ns stepId expected => cases plain
  | onStepResolved ns stepId => cases ran

/-- It does build it. -/
theorem Builds.ran {callback : Callback} (builds : m.Builds ns callback result p) (env : Env) :
    ∃ m', m.runCallback env callback result = .ok (m', .promise p) := by
  have dispatched : ∀ (event : Event) {stepId : String} {yielded : RegisteredStep}
      {effective : Step}, m.contract.materializeStepCall ns yielded.call = .ok effective →
      ∃ m', (m.emit event).materializeAndDispatch env ns stepId yielded =
        (m', .promise (resolvedPromise m.contract.authorizerId ns stepId effective)) := by
    intro event stepId yielded effective materialized
    have same : (m.emit event).contract.materializeStepCall ns yielded.call = .ok effective :=
      materialized
    unfold materializeAndDispatch
    rw [same]
    exact ⟨_, rfl⟩
  cases builds with
  | gate stored gate =>
      unfold runCallback onStepResumed
      simp only [stored, gate]
      exact ⟨_, rfl⟩
  | dispatch stored cleared materialized =>
      cases cleared with
      | ungated ungated =>
          unfold runCallback onStepResumed
          simp only [stored, ungated]
          exact (dispatched _ materialized).imp fun m' ran => congrArg Except.ok ran
      | inRange gate small verdict =>
          unfold runCallback onPreGateChecked
          simp only [stored, gate, small, verdict, PreGateOutcome.matched, if_true]
          exact (dispatched _ materialized).imp fun m' ran => congrArg Except.ok ran

/-- Only the contract matters. -/
theorem Builds.of_contract {callback : Callback} (builds : m.Builds ns callback result p)
    (same : m'.contract = m.contract) : m'.Builds ns callback result p := by
  have kept : ∀ stepId, m'.getStep ns stepId = m.getStep ns stepId := fun stepId =>
    congrArg (fun c : Contract => c.registeredSteps.get (registeredStepKey ns stepId)) same
  cases builds with
  | gate stored gate => exact .gate ((kept _).trans stored) gate
  | dispatch stored cleared materialized =>
      rw [← same] at materialized ⊢
      exact .dispatch ((kept _).trans stored) cleared materialized

theorem Builds.own {callback : Callback} (builds : m.Builds ns callback result p) :
    callback.sequenceNamespace = ns := by
  cases builds with
  | gate stored gate => rfl
  | dispatch stored cleared materialized => cases cleared <;> rfl

end Building

/-- Only postchecks fail by themselves. -/
theorem isPostcheck_of_error {env : Env} {m : Machine} {callback : Callback}
    {result : PromiseResult} {panic : Panic}
    (failed : m.runCallback env callback result = .error panic) : callback.isPostcheck = true := by
  cases callback with
  | onAssertedRunPostcheck ns stepId assertionId method args expected gas => rfl
  | onAssertedEvaluatePostcheck ns stepId expected => rfl
  | _ => cases failed

/-! ## Operations that fail a last callback -/

/-- The last callback of the flight builds a promise that the host does not create: the account
cannot pay what its call attaches, or the callback was not given more than the static gas of
its calls. -/
def Unpaid (m : Machine) (ns : String) (env : Env) (id : Nat) (answer : PromiseResult) : Prop :=
  ∃ head t result p, m.pool.get id = some ⟨head, [t]⟩ ∧ head.outcome answer = some result ∧
    m.Builds ns t.callback result p ∧
    (env.accountBalance < p.call.depositYocto ∨ t.gasTgas ≤ p.staticGas)

/-- The last callback of a flight of the namespace is due. -/
def LastDue (m : Machine) (ns : String) (id : Nat) (answer : PromiseResult) : Prop :=
  ∃ head t result, m.pool.get id = some ⟨head, [t]⟩ ∧ head.outcome answer = some result ∧
    t.callback.sequenceNamespace = ns

/-- The operation fails the last callback of flight `id`, one of the namespace: its promise is
not paid for, or the host ends it. -/
def Fails (m : Machine) (ns : String) (id : Nat) : Op → Prop
  | .deliver env id' answer => id' = id ∧ m.Unpaid ns env id answer
  | .abort id' answer => id' = id ∧ m.LastDue ns id answer
  | _ => False

section Failing

variable {m : Machine} {ns : String} {env : Env} {id : Nat} {answer : PromiseResult}

theorem Fails.deliver (unpaid : m.Unpaid ns env id answer) :
    m.Fails ns id (.deliver env id answer) := ⟨rfl, unpaid⟩

theorem Fails.abort (due : m.LastDue ns id answer) : m.Fails ns id (.abort id answer) :=
  ⟨rfl, due⟩

/-- A callback that builds what is not paid for fails. -/
theorem attempt_of_unpaid {t : Then} {result : PromiseResult} {p : Promise}
    (builds : m.Builds ns t.callback result p)
    (short : env.accountBalance < p.call.depositYocto ∨ t.gasTgas ≤ p.staticGas) (id : Nat) :
    ∃ panic, m.attempt env id t result = .error panic := by
  have builds' : ({ m with executing := some id }.note (.delivered id t.callback result)).Builds
      ns t.callback result p := builds.of_contract rfl
  obtain ⟨m', ran⟩ := builds'.ran env
  cases attempted : m.attempt env id t result with
  | error panic => exact ⟨panic, rfl⟩
  | ok done =>
      obtain ⟨m'', out⟩ := done
      obtain ⟨ran', paid⟩ := attempt_ok.mp attempted
      rw [ran, Except.ok.injEq, Prod.mk.injEq] at ran'
      rw [← ran'.2, PromiseOrValue.refusal_promise] at paid
      omega

/-- A last callback that fails built what is not paid for. -/
theorem unpaid_of_attempt {head : Head} {t : Then} {result : PromiseResult} {panic : Panic}
    (stored : m.pool.get id = some ⟨head, [t]⟩) (plain : t.callback.isPostcheck = false)
    (own : t.callback.sequenceNamespace = ns) (outcome : head.outcome answer = some result)
    (failed : m.attempt env id t result = .error panic) : m.Unpaid ns env id answer := by
  rcases attempt_error failed with refused | ⟨m', p, ran, excess⟩
  · rw [isPostcheck_of_error refused] at plain
    cases plain
  · have builds := builds_of_runCallback plain ran
    rw [own] at builds
    exact ⟨head, t, result, p, stored, outcome, builds.of_contract rfl, excess⟩

end Failing

end Machine

end SmartAccount
