import SmartAccount.Runtime
import SmartAccount.Namespaces
import Mathlib.Logic.Relation

/-!
# What a callback can write

Every callback addressed to a namespace is a sequence of single writes of that
namespace (`Write`).  What one write preserves is checked once per write and lifted to
every callback by `runCallback_writes`.
-/

namespace SmartAccount

open Foundation

/-! ## Single writes -/

/-- One write a callback addressed to `ns` can make. -/
inductive Write (ns : String) : Machine → Machine → Prop
  | note {m : Machine} (event : TraceEvent) (about : event.sequenceNamespace = some ns)
      (plain : event.isRegistered = false) : Write ns m (m.note event)
  | removeStep {m : Machine} (stepId : String) : Write ns m (m.removeStep ns stepId)
  | setQueue {m : Machine} (waiting : List String) : Write ns m (m.setQueue ns waiting)
  | removeQueue {m : Machine} : Write ns m (m.removeQueue ns)
  | clearContext {m : Machine} : Write ns m (m.clearContext ns)
  | saveResult {m : Machine} (spec : SaveResult) (bytes : Bytes) :
      Write ns m (m.withContract (m.contract.saveStepResult ns spec bytes))
  | resume {m m' : Machine} {stepId : String} {yielded : RegisteredStep}
      (stored : m.getStep ns stepId = some yielded)
      (resumed : m.resumeYield yielded.yieldId = some m') : Write ns m m'
  | finishRun {env : Env} {m : Machine} {run : AutomationRun} {status : AutomationRunStatus}
      {failedStepId : Option String} (stored : m.contract.automationRuns.get ns = some run)
      (running : run.status = .inFlight) (closing : status ≠ .inFlight) :
      Write ns m (m.recordRunFinished env ns run status failedStepId)
  | clearNamespace {m : Machine} : Write ns m (m.clearNamespace ns)

/-- A sequence of writes of one namespace. -/
abbrev Writes (ns : String) : Machine → Machine → Prop := Relation.ReflTransGen (Write ns)

namespace Writes

theorem emit {ns : String} (m : Machine) {event : Event}
    (about : event.sequenceNamespace = some ns) : Writes ns m (m.emit event) :=
  .single (.note _ about rfl)

theorem finishAutomationRun (env : Env) (m : Machine) (ns : String)
    {status : AutomationRunStatus} (failedStepId : Option String) (closing : status ≠ .inFlight) :
    Writes ns m (m.finishAutomationRun env ns status failedStepId) := by
  unfold Machine.finishAutomationRun
  split
  · exact .refl
  · rename_i run stored
    split
    · exact .refl
    · rename_i running
      have closed : run.status = .inFlight := not_not.mp running
      exact (((Relation.ReflTransGen.single (.finishRun stored closed closing)).trans
        (emit _ rfl)).tail .clearNamespace).tail .removeQueue

theorem resumeRegisteredStep {m m' : Machine} {ns stepId : String}
    (resumed : m.resumeRegisteredStep ns stepId = .ok m') : Writes ns m m' := by
  unfold Machine.resumeRegisteredStep at resumed
  split at resumed
  · cases resumed
  · rename_i yielded stored
    split at resumed
    · cases resumed
    · rename_i woken eq
      cases resumed
      exact (Relation.ReflTransGen.single (.resume stored eq)).tail (.note _ rfl rfl)

theorem haltSequence (env : Env) (m : Machine) (ns stepId : String)
    {status : AutomationRunStatus} (data : HaltData) (about : data.sequenceNamespace = ns)
    (closing : status ≠ .inFlight) :
    Writes ns m (m.haltSequence env ns stepId status data) := by
  have dropped : Writes ns m (((m.removeStep ns stepId).removeQueue ns).clearContext ns) :=
    ((Relation.ReflTransGen.single (.removeStep stepId)).tail .removeQueue).tail .clearContext
  exact (dropped.trans (finishAutomationRun env _ ns _ closing)).trans
    (emit _ (congrArg some about))

theorem takeNextQueuedStep (m : Machine) (ns : String) :
    Writes ns m (m.withContract (m.contract.takeNextQueuedStep ns).2) := by
  unfold Contract.takeNextQueuedStep
  split
  · exact .refl
  · exact .single .removeQueue
  · exact .single .removeQueue
  · exact .single (.setQueue _)

theorem progress (env : Env) (m : Machine) (ns stepId : String) (resultLen : Nat)
    (call : Option CallMetadata) (registeredAtMs : Nat) :
    Writes ns m (m.progressSequenceAfterSuccessfulResolution env ns stepId resultLen call
      registeredAtMs) := by
  have taken := takeNextQueuedStep m ns
  unfold Machine.progressSequenceAfterSuccessfulResolution
  split
  · rename_i next c eq
    rw [eq] at taken
    have announced := taken.trans (@emit ns (m.withContract c)
      (.stepResolvedOk stepId ns resultLen (some next) registeredAtMs
        (env.now - registeredAtMs) call) rfl)
    simp only
    split
    · rename_i resumed
      exact announced.trans (resumeRegisteredStep resumed)
    · refine announced.trans ?_
      exact (((Relation.ReflTransGen.single .removeQueue).tail .clearContext).trans
        (finishAutomationRun env _ ns _ (by decide))).trans (emit _ rfl)
  · rename_i c eq
    rw [eq] at taken
    exact (((taken.trans (emit _ rfl)).trans (emit _ rfl)).trans
      (finishAutomationRun env _ ns _ (by decide))).tail .clearContext

theorem materializeAndDispatch (env : Env) (m : Machine) (ns stepId : String)
    (yielded : RegisteredStep) :
    Writes ns m (m.materializeAndDispatch env ns stepId yielded).1 := by
  unfold Machine.materializeAndDispatch
  split
  · exact haltSequence env m ns stepId _ rfl (by decide)
  · exact .single (.note _ rfl rfl)

theorem onStepResumed (env : Env) (m : Machine) (ns stepId : String) (signal : PromiseResult) :
    Writes ns m (m.onStepResumed env ns stepId signal).1 := by
  unfold Machine.onStepResumed
  split
  · exact .refl
  · rename_i yielded stored
    split
    · exact haltSequence env m ns stepId _ rfl (by decide)
    · have announced := @emit ns m (.stepResumed stepId ns yielded.createdAtMs
        (env.now - yielded.createdAtMs) yielded.call.metadata) rfl
      simp only
      split
      · exact announced
      · exact announced.trans (materializeAndDispatch env _ ns stepId yielded)

theorem onPreGateChecked (env : Env) (m : Machine) (ns stepId : String)
    (result : PromiseResult) : Writes ns m (m.onPreGateChecked env ns stepId result).1 := by
  unfold Machine.onPreGateChecked
  split
  · exact .refl
  · rename_i yielded stored
    split
    · exact .refl
    · split
      · exact (emit m rfl).trans (haltSequence env _ ns stepId _ rfl (by decide))
      · simp only
        split
        · exact (emit m rfl).trans (materializeAndDispatch env _ ns stepId yielded)
        · exact (emit m rfl).trans (haltSequence env _ ns stepId _ rfl (by decide))

theorem onAssertedEvaluatePostcheck {m m' : Machine} {ns stepId : String}
    {expectedReturn : Bytes} {result : PromiseResult}
    (matched : m.onAssertedEvaluatePostcheck ns stepId expectedReturn result = .ok m') :
    Writes ns m m' := by
  obtain ⟨-, rfl⟩ := Machine.onAssertedEvaluatePostcheck_ok matched
  exact emit m rfl

theorem saveIfAsked (m : Machine) (ns stepId : String) (saveSpec : Option SaveResult)
    (bytes : Bytes) : Writes ns m (m.saveIfAsked ns stepId saveSpec bytes) := by
  unfold Machine.saveIfAsked
  split
  · rename_i spec
    exact (Relation.ReflTransGen.single (.saveResult spec bytes)).trans (emit _ rfl)
  · exact .refl

theorem onStepResolved (env : Env) (m : Machine) (ns stepId : String) (result : PromiseResult) :
    Writes ns m (m.onStepResolved env ns stepId result) := by
  have removed : Writes ns m (m.removeStep ns stepId) := .single (.removeStep stepId)
  unfold Machine.onStepResolved
  simp only
  split
  · exact (removed.trans (saveIfAsked _ ns stepId _ _)).trans (progress env _ ns stepId _ _ _)
  · exact (((removed.tail .removeQueue).tail .clearContext).trans
      (finishAutomationRun env _ ns _ (by decide))).trans (emit _ rfl)

/-- Every callback is a sequence of writes of the namespace it is addressed to. -/
theorem runCallback {env : Env} {m m' : Machine} {callback : Callback} {result : PromiseResult}
    {out : PromiseOrValue} (ran : m.runCallback env callback result = .ok (m', out)) :
    Writes callback.sequenceNamespace m m' := by
  cases callback with
  | onStepResumed ns stepId =>
      have eq : (m.onStepResumed env ns stepId result).1 = m' :=
        congrArg Prod.fst (Except.ok.inj ran)
      exact eq ▸ onStepResumed env m ns stepId result
  | onPreGateChecked ns stepId =>
      have eq : (m.onPreGateChecked env ns stepId result).1 = m' :=
        congrArg Prod.fst (Except.ok.inj ran)
      exact eq ▸ onPreGateChecked env m ns stepId result
  | onAssertedRunPostcheck ns stepId id method args expected gas =>
      obtain ⟨p, _, eq⟩ := bind_eq_ok.mp ran
      cases eq
      exact .refl
  | onAssertedEvaluatePostcheck ns stepId expected =>
      obtain ⟨checked, matched, eq⟩ := bind_eq_ok.mp ran
      cases eq
      exact onAssertedEvaluatePostcheck matched
  | onStepResolved ns stepId =>
      cases ran
      exact onStepResolved env m ns stepId result

end Writes

end SmartAccount
